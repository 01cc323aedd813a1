import FilterSelect.Proofs.Injection

/-!
# Normalized comparisons

An equality or a membership that does not compare numbers has a normalized text on its left. On its
right each value has a form of its own. Texts are normalized too, so that letter case and accents do
not count. Values that only show a text, which are truth values, lists and numbers that are not
finite, are written as that text: a column finds them when their text is in normal form already.

* `Rule.comparands`: the values that an equality or a membership compares with.
* `Sql.Operand.IsNormal`: the operand is written as null, a number, a truth value, or normalized.
* `Value.ComparesBy`: which values have such operands, and which columns they are equal to.
* `Value.comparesBy_operand`: the operand of a value, beside a normalized column.
* `Rule.comparesBy_condition`: the operands of a normalized comparison, one by one.
-/

namespace FilterSelect

open Sql (Token Condition Operand Subject)

/-! ## What is compared -/

/-- Whether values are asked for by equality. -/
def Operator.asksEquality : Operator → Bool
  | equal | notEqual | other | isIn => true
  | _ => false

/-- The values that a rule compares its column with: for a membership the members of its list. -/
def Rule.comparands (x : Rule) : List Value :=
  if x.operator = some .isIn then x.operand.members else [x.operand]

/-- The compared side of a condition, if it compares values. -/
def Sql.Condition.subject? : Condition → Option Subject
  | .compare subject _ _ | .isIn subject _ => some subject
  | .never | .isLike _ _ | .isNull _ | .isNotNull _ => none

/-- Whether the value is a text itself. -/
def Value.isText : Value → Bool
  | .text _ => true
  | _ => false

/-- The operand is written as null, as a number, as a truth value, or as a normalized text. -/
def Sql.Operand.IsNormal (o : Options) (x : Operand) : Prop :=
  x.sql o = "NULL" ∨ FilterSelect.IsPlain (x.sql o).toList ∨ x.sql o ∈ ["'true'", "'false'"] ∨
    ∃ s, x.sql o = o.normalizer ++ "(lower(" ++ Sql.literal s ++ "))"

/-- The text that the operand stands for, where `fold` is what the normalizer makes of a text in
lower case. Null and numbers are no texts. -/
def Sql.Operand.text? (fold : String → String) : Operand → Option String
  | .null | .number _ => none
  | .text s => some s
  | .normalizedText s => some (fold s)

/-- How a value is compared with a normalized column by an operand. A column with its text, up to
what the normalizer makes of it, always equals it only when the value is a text itself, or its text
is in normal form. -/
structure Value.ComparesBy (o : Options) (v : Value) (x : Operand) : Prop where
  isNormal : x.IsNormal o ↔ v.isText ∨ v.isNull ∨ v.isNumeric ∨ v.toText ∈ ["true", "false"]
  matches_iff : ∀ (fold : String → String) (text : String), v.isNull = false →
    v.isNumeric = false → fold text = fold v.toText →
      (x.text? fold = some (fold text) ↔ v.isText ∨ fold v.toText = v.toText)

/-! ## Operands as they are written -/

namespace Sql.Operand

/-- Only normalizing calls a function. -/
theorem paren_mem_tokens (o : Options) (s : String) :
    Token.punct '(' ∈ (normalizedText s).tokens o := by
  simp [tokens, normalizedTokens]

variable {o : Options} (ho : o.fault? = none)
include ho

/-- The text of an operand tells its tokens. -/
theorem tokens_eq_of_sql_eq {x y : Operand} (hx : x.IsPlain) (hy : y.IsPlain)
    (h : x.sql o = y.sql o) : x.tokens o = y.tokens o := by
  have htokens := (phrase ho hx).lex?_eq
  rw [h, (phrase ho hy).lex?_eq] at htokens
  exact (Option.some.inj htokens).symm

theorem eq_of_sql_text_eq {s t : String} (h : (text s).sql o = (text t).sql o) : s = t := by
  have htokens := tokens_eq_of_sql_eq ho (x := text s) (y := text t) trivial trivial h
  simpa [tokens] using htokens

/-- A text that is not normalized is written as no other kind of operand is. -/
theorem isNormal_text_iff {s : String} : (text s).IsNormal o ↔ s ∈ ["true", "false"] := by
  have htrue : literal "true" = "'true'" := by decide +kernel
  have hfalse : literal "false" = "'false'" := by decide +kernel
  simp only [IsNormal, List.mem_cons, List.not_mem_nil, or_false, ← htrue, ← hfalse]
  constructor
  · rintro (h | h | h | ⟨t, h⟩)
    · have htokens := tokens_eq_of_sql_eq ho (x := text s) (y := null) trivial trivial h
      cases htokens
    · have htokens : [Token.text s] = numberTokens (literal s) :=
        tokens_eq_of_sql_eq ho (x := text s) (y := number (literal s)) trivial h rfl
      unfold numberTokens at htokens
      split at htokens <;> cases htokens
    · exact h.imp (eq_of_sql_text_eq ho) (eq_of_sql_text_eq ho)
    · have htokens := tokens_eq_of_sql_eq ho (x := text s) (y := normalizedText t) trivial trivial h
      have hparen := paren_mem_tokens o t
      rw [← htokens] at hparen
      simp [tokens] at hparen
  · rintro (rfl | rfl)
    · exact .inr (.inr (.inl (.inl rfl)))
    · exact .inr (.inr (.inl (.inr rfl)))

end Sql.Operand

/-! ## Values and their operands -/

namespace Value

/-- A value that is neither null nor a number is compared by its text, and only a text itself is
normalized. -/
theorem operand_of_isNumeric_eq_false {v : Value} (hnull : v.isNull = false)
    (hnumeric : v.isNumeric = false) :
    v.operand true = if v.isText then .normalizedText v.toText else .text v.toText := by
  have hnumeral : v.numeral? = none := by simpa [isNumeric] using hnumeric
  cases v with
  | null => cases hnull
  | text s => simp [operand, hnumeral, isText, toText]
  | _ => simp [operand, hnumeral, isText]

theorem isNormal_operand_iff {o : Options} (ho : o.fault? = none) (v : Value) :
    (v.operand true).IsNormal o ↔
      v.isText ∨ v.isNull ∨ v.isNumeric ∨ v.toText ∈ ["true", "false"] := by
  by_cases hnull : v.isNull = true
  · have hoperand : v.operand true = .null := by
      cases v with
      | null => rfl
      | _ => cases hnull
    rw [hoperand]
    exact iff_of_true (.inl rfl) (.inr (.inl hnull))
  by_cases hnumeric : v.isNumeric = true
  · obtain ⟨numeral, hnumeral⟩ := Option.isSome_iff_exists.mp hnumeric
    rw [operand_of_numeral? hnumeral]
    exact iff_of_true (.inr (.inl (isPlain_of_numeral? hnumeral))) (.inr (.inr (.inl hnumeric)))
  rw [operand_of_isNumeric_eq_false (by simpa using hnull) (by simpa using hnumeric)]
  by_cases htext : v.isText = true
  · rw [if_pos htext]
    exact iff_of_true (.inr (.inr (.inr ⟨v.toText, rfl⟩))) (.inl htext)
  · rw [if_neg htext, Sql.Operand.isNormal_text_iff ho]
    simp [htext, hnull, hnumeric]

/-- The operand of a value, beside a normalized column. -/
theorem comparesBy_operand {o : Options} (ho : o.fault? = none) (v : Value) :
    v.ComparesBy o (v.operand true) where
  isNormal := v.isNormal_operand_iff ho
  matches_iff fold text hnull hnumeric hfold := by
    rw [operand_of_isNumeric_eq_false hnull hnumeric, hfold]
    by_cases htext : v.isText = true
    · simp [htext, Sql.Operand.text?]
    · simp [htext, Sql.Operand.text?, @eq_comm _ v.toText]

end Value

/-! ## Rules -/

/-- A normalized comparison has an operand for each value. -/
theorem Operator.operands_condition {op : Operator} (hop : op.asksEquality = true)
    {column : Sql.ColumnRef} {v : Value} {ref : Sql.ColumnRef}
    (h : (op.condition column v).subject? = some ⟨ref, true⟩) :
    (op.condition column v).operands =
      (if op = .isIn then v.members else [v]).map (Value.operand true) := by
  cases op with
  | equal | notEqual | other =>
    have hnormalize := (Subject.mk.inj (Option.some.inj h)).2
    simp [condition, Condition.operands, hnormalize]
  | isIn =>
    simp only [condition] at h ⊢
    split at h
    · cases h
    all_goals
      have hnormalize := (Subject.mk.inj (Option.some.inj h)).2
      simp [Condition.operands, Value.members, hnormalize]
  | _ => cases hop

/-- The operands of a normalized equality or membership are those of the values that are asked
for, one by one. All but those of lists and of numbers that are not finite are null, numbers, truth
values or normalized texts. -/
theorem Rule.comparesBy_condition {k : Compiler} {s : Scope} {x : Rule} {c : Condition}
    {op : Operator} {column : Sql.ColumnRef} (h : x.condition s = .ok c)
    (hop : x.operator = some op) (hequality : op.asksEquality = true)
    (hnormalized : c.subject? = some ⟨column, true⟩) :
    List.Forall₂ (Value.ComparesBy k.options) x.comparands c.operands := by
  obtain ⟨ref, -, h⟩ := bind_eq_ok_iff.mp h
  cases h
  rw [hop, Option.getD_some] at hnormalized ⊢
  have hcomparands : x.comparands = if op = .isIn then x.operand.members else [x.operand] := by
    simp [comparands, hop]
  rw [Operator.operands_condition hequality hnormalized, hcomparands, List.forall₂_map_right_iff,
    List.forall₂_same]
  exact fun v _ => v.comparesBy_operand k.usable

/-- A membership in a text, a truth value, null, a number, and a list with capital letters. -/
def Rule.mixedMembers : Rule :=
  ⟨"tags", some .isIn, some (.list [.text "Ärzte", .bool true, .null, .int (-7),
    .list [.text "A", .text "b"]])⟩

theorem Rule.comparesBy_mixedMembers : ∃ c, mixedMembers.condition ⟨"band", []⟩ = .ok c ∧
    c.subject? = some ⟨⟨.primary, "tags"⟩, true⟩ ∧
    List.Forall₂ (Value.ComparesBy {}) mixedMembers.comparands c.operands ∧
    c.operands.map (Operand.sql {}) =
      ["unaccent(lower('Ärzte'))", "'true'", "NULL", "-7", "'A,b'"] := by
  have hsubject : ((mixedMembers.condition ⟨"band", []⟩).toOption.bind Condition.subject?) =
      some ⟨⟨.primary, "tags"⟩, true⟩ := by decide +kernel
  refine ⟨_, rfl, hsubject, ?_, by decide +kernel⟩
  exact comparesBy_condition (k := .standard) (s := ⟨"band", []⟩) rfl rfl rfl hsubject

/-- Where a list is asked for, the column is normalized and the text of the list is not. So a
normalizer that leaves texts in lower case as they are makes no text equal to a list with a capital
letter. -/
theorem Rule.not_isNormal_list : ∃ c operand,
    Rule.condition ⟨"post", []⟩ ⟨"tags", some .equal, some (.list [.text "A", .text "b"])⟩ = .ok c ∧
      c.sql {} = "unaccent(lower(CAST(main.\"tags\" AS TEXT))) = 'A,b'" ∧
      c.subject? = some ⟨⟨.primary, "tags"⟩, true⟩ ∧ operand ∈ c.operands ∧
      ¬ operand.IsNormal {} ∧ operand.text? String.toLower ≠ some ("A,b".toLower) := by
  refine ⟨_, .text "A,b", rfl, by decide +kernel, by decide +kernel, by decide +kernel, ?_, ?_⟩
  · rw [Sql.Operand.isNormal_text_iff (o := {}) Compiler.standard.usable]
    decide
  · decide +kernel

end FilterSelect
