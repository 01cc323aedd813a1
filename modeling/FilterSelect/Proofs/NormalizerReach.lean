import FilterSelect.Proofs.NumberComparison
import FilterSelect.Proofs.Thinning

/-!
# What the normalizer reaches

The normalizer is written into a statement wherever texts are compared, and nowhere else. So two
compilers that differ in it alone agree on what they refuse, and write the same text of a request
exactly when none of its complete rules compares texts. The length of a text tells how long the name
in it is, if it is in there at all; so two names never give the same text, wherever they stand.

* `Sql.Mentions`: a text with a name put into it at some places, or at none.
* `Sql.Mentions.eq_iff`: only a text that does not mention the name is the same for two names.
* `Operator.ComparesTexts`, `Rule.ComparesTexts`: the rules that compare texts.
* `Rule.isNormalized_condition_iff`: their conditions are those that call the normalizer.
* `Compiler.compile_normalizer`: the texts of a request under two normalizers.
-/

namespace FilterSelect

open Sql (Clause ColumnRef Condition Operand Select Subject Where)

/-! ## Texts with a name put into them -/

theorem Text.append_inj {a b c d : String} (h : a ++ b = c ++ d) (hlength : a.length = c.length) :
    a = c ∧ b = d := by
  rw [← String.toList_inj, String.toList_append, String.toList_append] at h
  rw [← String.toList_inj, ← String.toList_inj]
  exact List.append_inj h (by rwa [String.length_toList, String.length_toList])

namespace Sql

/-- The text `f name` has the name at some place if `p` holds, and else at none. -/
inductive Mentions : (String → String) → Prop → Prop
  | without (text : String) : Mentions (fun _ => text) False
  | name : Mentions (fun name => name) True
  | append {f g : String → String} {p q : Prop} (hf : Mentions f p) (hg : Mentions g q) :
      Mentions (fun name => f name ++ g name) (p ∨ q)

namespace Mentions

variable {f : String → String} {p q : Prop}

theorem of_iff (h : Mentions f p) (hpq : p ↔ q) : Mentions f q := propext hpq ▸ h

theorem eq_of_not (h : Mentions f p) (hp : ¬ p) (a b : String) : f a = f b := by
  induction h with
  | without text => rfl
  | name => exact absurd trivial hp
  | append _ _ ihf ihg =>
    rw [not_or] at hp
    simp only [ihf hp.1, ihg hp.2]

/-- Each place of the name adds its length to the text. -/
theorem exists_length_eq (h : Mentions f p) :
    ∃ n k, (∀ a, (f a).length = n + k * a.length) ∧ (p → 0 < k) := by
  induction h with
  | without text => exact ⟨text.length, 0, by simp, False.elim⟩
  | name => exact ⟨0, 1, by simp, fun _ => Nat.one_pos⟩
  | append _ _ ihf ihg =>
    obtain ⟨n, k, hf, hk⟩ := ihf
    obtain ⟨m, l, hg, hl⟩ := ihg
    refine ⟨n + m, k + l, fun a => ?_, ?_⟩
    · rw [String.length_append, hf, hg, Nat.add_mul]
      omega
    · rintro (hp | hq)
      · exact Nat.add_pos_left (hk hp) l
      · exact Nat.add_pos_right k (hl hq)

theorem eq_of_length_eq (h : Mentions f p) (hp : p) {a b : String} (hlength : a.length = b.length)
    (hab : f a = f b) : a = b := by
  induction h with
  | without => exact hp.elim
  | name => exact hab
  | append hf _ ihf ihg =>
    obtain ⟨n, k, hn, -⟩ := hf.exists_length_eq
    obtain ⟨hleft, hright⟩ := Text.append_inj hab (by rw [hn, hn, hlength])
    rcases hp with hp | hq
    · exact ihf hp hleft
    · exact ihg hq hright

/-- Two names give the same text exactly when the text mentions none. -/
theorem eq_iff (h : Mentions f p) {a b : String} (hab : a ≠ b) : f a = f b ↔ ¬ p := by
  refine ⟨fun heq hp => ?_, fun hp => h.eq_of_not hp a b⟩
  obtain ⟨n, k, hlength, hk⟩ := h.exists_length_eq
  have hsame := congrArg String.length heq
  rw [hlength, hlength, Nat.add_left_cancel_iff] at hsame
  exact hab (h.eq_of_length_eq hp (Nat.eq_of_mul_eq_mul_left (hk hp) hsame) heq)

theorem intercalate {α : Type} (sep : String) {f : String → α → String} {p : α → Prop}
    {xs : List α} (h : ∀ x ∈ xs, Mentions (fun name => f name x) (p x)) :
    Mentions (fun name => sep.intercalate (xs.map (f name))) (∃ x ∈ xs, p x) := by
  induction xs with
  | nil => exact (Mentions.without "").of_iff (by simp)
  | cons x xs ih =>
    have hx := h x List.mem_cons_self
    have ih := ih fun y hy => h y (List.mem_cons_of_mem x hy)
    cases xs with
    | nil => simpa using hx
    | cons y ys =>
      simp only [List.map_cons, String.intercalate_cons_cons] at ih ⊢
      exact ((hx.append (.without sep)).append ih).of_iff (by simp)

end Mentions

/-! ## Statements -/

/-- Whether the operand is a normalized text. -/
def Operand.isNormalized : Operand → Bool
  | .normalizedText _ => true
  | _ => false

/-- The normalizer is called on some side of the condition. -/
def Condition.IsNormalized : Condition → Prop
  | .compare subject _ operand => subject.isNormalized = true ∨ operand.isNormalized = true
  | .isIn subject operands => subject.isNormalized = true ∨ ∃ x ∈ operands, x.isNormalized = true
  | .isLike _ _ => True
  | .never | .isNull _ | .isNotNull _ => False

section Parts

variable (a : String)

theorem mentions_normalized (text : String) :
    Mentions (fun name => normalized ⟨a, name⟩ text) True :=
  (((Mentions.name.append (.without "(lower(")).append (.without text)).append
    (.without "))")).of_iff (by simp)

theorem mentions_subject (s : Subject) :
    Mentions (fun name => s.sql ⟨a, name⟩) (s.isNormalized = true) := by
  unfold Subject.sql
  cases s.isNormalized with
  | false => exact (Mentions.without (s.column.sql ⟨a, ""⟩)).of_iff (by simp)
  | true =>
    have hcast := mentions_normalized a ("CAST(" ++ s.column.sql ⟨a, ""⟩ ++ " AS TEXT)")
    exact hcast.of_iff (by simp)

theorem mentions_operand (x : Operand) :
    Mentions (fun name => x.sql ⟨a, name⟩) (x.isNormalized = true) := by
  cases x with
  | null => exact (Mentions.without "NULL").of_iff (by simp [Operand.isNormalized])
  | number numeral => exact (Mentions.without numeral).of_iff (by simp [Operand.isNormalized])
  | text s => exact (Mentions.without (literal s)).of_iff (by simp [Operand.isNormalized])
  | normalizedText s =>
    exact (mentions_normalized a (literal s)).of_iff (by simp [Operand.isNormalized])

theorem mentions_condition (c : Condition) :
    Mentions (fun name => c.sql ⟨a, name⟩) c.IsNormalized := by
  cases c with
  | compare subject comparison operand =>
    have hleft := (mentions_subject a subject).append (.without " ")
    have hsign := (hleft.append (.without comparison.symbol)).append (.without " ")
    exact (hsign.append (mentions_operand a operand)).of_iff (by simp [Condition.IsNormalized])
  | isIn subject operands =>
    have hleft := (mentions_subject a subject).append (.without " IN (")
    have hlist := Mentions.intercalate ", " fun x (_ : x ∈ operands) => mentions_operand a x
    exact ((hleft.append hlist).append (.without ")")).of_iff (by simp [Condition.IsNormalized])
  | never => exact .without "1=0"
  | isLike column pattern =>
    have hleft := (mentions_subject a ⟨column, true⟩).append (.without " LIKE ")
    exact (hleft.append (mentions_operand a (.normalizedText pattern))).of_iff
      (by simp [Condition.IsNormalized])
  | isNull column => exact .without (column.sql ⟨a, ""⟩ ++ " IS NULL")
  | isNotNull column => exact .without (column.sql ⟨a, ""⟩ ++ " IS NOT NULL")

theorem mentions_clause (c : Clause) :
    Mentions (fun name => c.sql ⟨a, name⟩) (∃ x ∈ c.conditions, x.IsNormalized) := by
  induction c using Clause.ind with
  | condition x => exact (mentions_condition a x).of_iff (by simp [Clause.conditions])
  | group combinator clauses ih =>
    have hmembers := Mentions.intercalate combinator.separator ih
    have hall := ((Mentions.without "(").append hmembers).append (.without ")")
    simp only [Clause.sql, Clause.sqls_eq_map, Clause.conditions]
    exact hall.of_iff (by simp [Clause.exists_mem_conditionsOf_iff])

theorem mentions_where (w : Where) : Mentions (fun name => w.sql ⟨a, name⟩)
    (∃ x ∈ Clause.conditionsOf w.clauses, x.IsNormalized) := by
  have hclauses := Mentions.intercalate w.combinator.separator
    fun c (_ : c ∈ w.clauses) => mentions_clause a c
  simp only [Where.sql, Clause.sqls_eq_map]
  exact hclauses.of_iff Clause.exists_mem_conditionsOf_iff.symm

/-- The statement calls the normalizer where a condition does. -/
theorem mentions_select (s : Select) : Mentions (fun name => s.sql ⟨a, name⟩)
    (∃ x ∈ Clause.conditionsOf s.condition.clauses, x.IsNormalized) := by
  unfold Select.sql
  cases hclauses : s.condition.clauses with
  | nil =>
    exact (Mentions.without (s.headSql ⟨a, ""⟩)).of_iff (by simp [Clause.conditionsOf])
  | cons c cs =>
    have hhead := (Mentions.without (s.headSql ⟨a, ""⟩)).append (.without " WHERE ")
    have hwhere := mentions_where a s.condition
    rw [hclauses] at hwhere
    exact (hhead.append hwhere).of_iff (by simp)

end Parts

end Sql

/-! ## Rules that compare texts -/

/-- An operator that compares a column with the texts of a value. -/
inductive Operator.ComparesTexts : Operator → Value → Prop
  /-- A text is always searched for in a text. -/
  | search {op : Operator} {v : Value} (hop : op ∈ [contains, beginsWith, endsWith]) :
      ComparesTexts op v
  | equality {op : Operator} {v : Value} (hop : op ∈ [equal, notEqual, other])
      (hv : v.isNumeric = false) : ComparesTexts op v
  | scalar {v : Value} (hscalar : v.isScalar = true) (hv : v.isNumeric = false) :
      ComparesTexts isIn v
  | member {members : List Value} {v : Value} (hmem : v ∈ members) (hv : v.isNumeric = false) :
      ComparesTexts isIn (.list members)

/-- The rule compares texts. -/
def Rule.ComparesTexts (x : Rule) : Prop :=
  ∃ op, x.operator = some op ∧ op.ComparesTexts x.operand

theorem Value.isNormalized_operand_false (v : Value) : (v.operand false).isNormalized = false := by
  unfold operand
  split
  · rfl
  · split <;> rfl

theorem Value.isNormalized_orderingOperand (v : Value) :
    v.orderingOperand.isNormalized = false := by
  unfold orderingOperand
  split <;> rfl

namespace Operator

/-- Beside a column that stands as it is, no operand is normalized. -/
theorem isNormalized_compare_iff (column : ColumnRef) (normalize : Bool)
    (comparison : Sql.Comparison) (v : Value) :
    (Condition.compare ⟨column, normalize⟩ comparison (v.operand normalize)).IsNormalized ↔
      normalize = true := by
  cases normalize <;> simp [Condition.IsNormalized, Value.isNormalized_operand_false]

theorem isNormalized_isIn_iff (column : ColumnRef) (normalize : Bool) (vs : List Value) :
    (Condition.isIn ⟨column, normalize⟩ (vs.map (Value.operand normalize))).IsNormalized ↔
      normalize = true := by
  cases normalize <;> simp [Condition.IsNormalized, Value.isNormalized_operand_false]

theorem comparesTexts_iff_of_mem {op : Operator} (hop : op ∈ [equal, notEqual, other])
    {v : Value} : op.ComparesTexts v ↔ v.isNumeric = false := by
  have hdisjoint : ∀ op ∈ [equal, notEqual, other], op ∉ [contains, beginsWith, endsWith] := by
    decide
  refine ⟨fun h => ?_, .equality hop⟩
  cases h with
  | search hsearch => exact absurd hsearch (hdisjoint op hop)
  | equality _ hv => exact hv
  | scalar | member => exact absurd hop (by decide)

/-- Ordering and tests for null compare no texts. -/
theorem not_comparesTexts_of_mem {op : Operator}
    (hop : op ∈ [less, greater, atMost, atLeast, isNull, isNotNull]) (v : Value) :
    ¬ op.ComparesTexts v := by
  have hdisjoint : ∀ op ∈ [less, greater, atMost, atLeast, isNull, isNotNull],
      op ∉ [contains, beginsWith, endsWith] ∧ op ∉ [equal, notEqual, other] := by
    decide
  intro h
  cases h with
  | search hsearch => exact (hdisjoint op hop).1 hsearch
  | equality hequality => exact (hdisjoint op hop).2 hequality
  | scalar | member => exact absurd hop (by decide)

theorem comparesTexts_isIn_iff {v : Value} :
    isIn.ComparesTexts v ↔ ∃ w ∈ v.members, w.isNumeric = false := by
  constructor
  · intro h
    cases h with
    | search hop | equality hop => exact absurd hop (by decide)
    | scalar hscalar hv => exact ⟨v, by simp [Value.members_of_isScalar hscalar], hv⟩
    | member hmem hv => exact ⟨_, hmem, hv⟩
  · rintro ⟨w, hmem, hw⟩
    cases v with
    | list => exact .member hmem hw
    | _ =>
      cases List.mem_singleton.mp hmem
      exact .scalar rfl hw

/-- A condition calls the normalizer exactly when the operator compares the column with texts. -/
theorem isNormalized_condition_iff (op : Operator) (column : ColumnRef) (v : Value) :
    (op.condition column v).IsNormalized ↔ op.ComparesTexts v := by
  cases op with
  | contains | beginsWith | endsWith => exact iff_of_true trivial (.search (by simp))
  | equal | notEqual | other =>
    rw [comparesTexts_iff_of_mem (by simp)]
    exact (isNormalized_compare_iff _ _ _ _).trans (by simp [comparesNumbers])
  | less | greater | atMost | atLeast =>
    refine iff_of_false ?_ (not_comparesTexts_of_mem (by simp) v)
    simp [condition, Condition.IsNormalized, Value.isNormalized_orderingOperand]
  | isNull | isNotNull => exact iff_of_false id (not_comparesTexts_of_mem (by simp) v)
  | isIn =>
    rw [comparesTexts_isIn_iff]
    cases v with
    | list members =>
      cases members with
      | nil => exact iff_of_false id (by simp [Value.members])
      | cons w ws =>
        exact (isNormalized_isIn_iff _ _ (w :: ws)).trans (by simp [comparesNumbers, Value.members])
    | _ =>
      exact (isNormalized_isIn_iff _ _ [_]).trans (by simp [comparesNumbers, Value.members])

end Operator

theorem Rule.isNormalized_condition_iff {s : Scope} {x : Rule} {c : Condition}
    (h : x.condition s = .ok c) (hx : x.isComplete = true) :
    c.IsNormalized ↔ x.ComparesTexts := by
  obtain ⟨column, -, h⟩ := bind_eq_ok_iff.mp h
  cases h
  rw [isComplete, Bool.and_eq_true] at hx
  obtain ⟨op, hop⟩ := Option.isSome_iff_exists.mp hx.1
  rw [Operator.isNormalized_condition_iff]
  simp [ComparesTexts, hop]

/-- A filter has a normalized condition exactly when one of its complete rules compares texts. -/
theorem Group.exists_isNormalized_iff {s : Scope} {g : Group} {w : Where}
    (h : g.condition s = .ok w) : (∃ c ∈ Clause.conditionsOf w.clauses, c.IsNormalized) ↔
      ∃ x ∈ g.rules, ¬ x.IsIncomplete ∧ x.ComparesTexts := by
  have hrules := g.mapM_completeRules s
  rw [h] at hrules
  rw [exists_mem_iff_of_forall₂ (mapM_eq_ok_iff.mp hrules) fun x hx _ hc =>
    Rule.isNormalized_condition_iff hc (mem_completeRules_iff.mp hx).2]
  simp only [mem_completeRules_iff, Rule.isComplete_iff, and_assoc]

namespace Compiler

variable {c d : Compiler} (halias : c.options.primaryAlias = d.options.primaryAlias)
  (hnormalizer : c.options.normalizer ≠ d.options.normalizer)
include halias hnormalizer

theorem sql_eq_iff_of_mentions (text : Options → String) {p : Prop}
    (h : Sql.Mentions (fun name => text ⟨c.options.primaryAlias, name⟩) p) :
    text c.options = text d.options ↔ ¬ p := by
  have hd : d.options = ⟨c.options.primaryAlias, d.options.normalizer⟩ := by rw [halias]
  rw [hd]
  exact h.eq_iff hnormalizer

/-- Two compilers that differ in the normalizer alone refuse the same requests for the same fault.
They write the same text of a request exactly when none of its complete rules compares texts, and
the same condition of a complete rule exactly when that rule does not. -/
theorem compile_normalizer (r : Request) :
    ((∃ e, c.compile r = .error e ∧ d.compile r = .error e) ∨
      ∃ a b, c.compile r = .ok a ∧ d.compile r = .ok b ∧
        (a = b ↔ ¬ ∃ x ∈ r.filter.rules, ¬ x.IsIncomplete ∧ x.ComparesTexts)) ∧
    ∀ (s : Scope) (x : Rule) (condition : Condition), x.condition s = .ok condition →
      ¬ x.IsIncomplete →
      (condition.sql c.options = condition.sql d.options ↔ ¬ x.ComparesTexts) := by
  refine ⟨?_, fun s x condition hcondition hx => ?_⟩
  · cases hs : r.select with
    | error e => exact .inl ⟨e, by rw [compile, hs]; rfl, by rw [compile, hs]; rfl⟩
    | ok s =>
      obtain ⟨-, -, -, hw, -, -⟩ := Request.select_eq_ok_iff.mp hs
      refine .inr ⟨_, _, map_eq_ok_iff.mpr ⟨s, hs, rfl⟩, map_eq_ok_iff.mpr ⟨s, hs, rfl⟩, ?_⟩
      rw [← Group.exists_isNormalized_iff hw]
      exact sql_eq_iff_of_mentions halias hnormalizer (fun o => s.sql o)
        (Sql.mentions_select _ s)
  · rw [← Rule.isNormalized_condition_iff hcondition (Rule.isComplete_iff.mpr hx)]
    exact sql_eq_iff_of_mentions halias hnormalizer (fun o => condition.sql o)
      (Sql.mentions_condition _ condition)

end Compiler

/-- A request for the names from M on that hold an é. -/
def Request.secondHalf : Request where
  table := "users"
  filter := ⟨.and, [.rule ⟨"name", some .atLeast, some (.text "M")⟩,
    .group .or [.rule ⟨"name", some .contains, some (.text "é")⟩]]⟩

/-- Searching for a text depends on the normalizer, and ordering by it does not. -/
theorem Compiler.compile_normalizer_secondHalf : "unaccent" ≠ "public.unaccent" ∧ ∃ a b condition,
    Compiler.compile { options := ⟨"u", "unaccent"⟩ } .secondHalf = .ok a ∧
    Compiler.compile { options := ⟨"u", "public.unaccent"⟩ } .secondHalf = .ok b ∧ a ≠ b ∧
    Rule.condition Request.secondHalf.scope ⟨"name", some .atLeast, some (.text "M")⟩ =
      .ok condition ∧
    condition.sql ⟨"u", "unaccent"⟩ = condition.sql ⟨"u", "public.unaccent"⟩ := by
  have hne : "unaccent" ≠ "public.unaccent" := by decide
  obtain ⟨hcompile, hrule⟩ := compile_normalizer (c := { options := ⟨"u", "unaccent"⟩ })
    (d := { options := ⟨"u", "public.unaccent"⟩ }) rfl hne .secondHalf
  have hcomplete (op : Operator) (v : Value) : ¬ Rule.IsIncomplete ⟨"name", some op, some v⟩ :=
    Rule.isComplete_iff.mp (by simp [Rule.isComplete, Field.isComplete, Field.ofText])
  rcases hcompile with ⟨e, he, -⟩ | ⟨a, b, ha, hb, hab⟩
  · cases he
  · refine ⟨hne, a, b, _, ha, hb, fun h => hab.mp h ?_, rfl, ?_⟩
    · exact ⟨⟨"name", some .contains, some (.text "é")⟩,
        by simp [Request.secondHalf, Group.rules, Node.rulesOf, Node.rules], hcomplete _ _,
        .contains, rfl, .search (by simp)⟩
    · refine (hrule Request.secondHalf.scope ⟨"name", some .atLeast, some (.text "M")⟩ _ rfl
        (hcomplete _ _)).mpr ?_
      rintro ⟨op, hop, h⟩
      cases hop
      exact Operator.not_comparesTexts_of_mem (by decide) _ h

end FilterSelect
