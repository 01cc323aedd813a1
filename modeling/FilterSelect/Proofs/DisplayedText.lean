import FilterSelect.Proofs.Normalization
import FilterSelect.Proofs.Number.Display
import FilterSelect.Proofs.TextMatch

/-!
# Values as a browser displays them

The text of a value is to be the one that the user saw, so it follows a browser's: a list is shown
by its members with commas between them, and null inside a list by nothing. Only the numbers differ:
a browser displays the very large and the very small ones with an exponent, and the infinities by
other names.

* `Browser.Shows`: the texts that a browser may display a value by.
* `Browser.Discerned`: texts of members that what follows them cannot make up for.
* `Browser.discerned_toText`: so a list differs wherever one of its members does.
* `Browser.shows_toText_iff`: the text of a value is one of a browser as far as its numbers are.
* `Operator.QuotesShown`: the texts that a condition quotes are those that the user saw.
* `Value.shownAlike`: both hold exactly where all numbers are displayed in plain notation.
-/

namespace FilterSelect

open Sql (Condition Operand)

namespace Browser

mutual

/-- A text that a browser may display a value by. -/
inductive Shows : Value → String → Prop
  | null : Shows .null "null"
  | bool (b : Bool) : Shows (.bool b) (if b then "true" else "false")
  | int (n : Int64) : Shows (.int n) (toString n.toInt)
  | float {x : Binary64} {t : String} (h : ShowsNumber x t) : Shows (.float x) t
  | text (s : String) : Shows (.text s) s
  | list {members : List Value} {ts : List String} (h : ShowsMembers members ts) :
    Shows (.list members) (",".intercalate ts)

/-- Texts that a browser may display the members of a list by: null is displayed by nothing. -/
inductive ShowsMembers : List Value → List String → Prop
  | nil : ShowsMembers [] []
  | null {vs : List Value} {ts : List String} (h : ShowsMembers vs ts) :
    ShowsMembers (.null :: vs) ("" :: ts)
  | cons {v : Value} {vs : List Value} {t : String} {ts : List String} (hv : v.isNull = false)
    (h : Shows v t) (h' : ShowsMembers vs ts) : ShowsMembers (v :: vs) (t :: ts)

end

end Browser

namespace Value

mutual

/-- The numbers in a value that are not whole numbers of 64 bits. -/
def floats : Value → List Binary64
  | .float x => [x]
  | .list members => floatsOf members
  | .null | .bool _ | .int _ | .text _ => []

/-- The numbers in the members of a list. -/
def floatsOf : List Value → List Binary64
  | [] => []
  | v :: vs => v.floats ++ floatsOf vs

end

end Value

namespace Browser

/-! ## Members -/

/-- What follows a member of a list: nothing, or the comma before the next one. -/
def AtEnd (rest : List Char) : Prop := ∀ c ∈ rest.head?, c = ','

theorem atEnd_nil : AtEnd [] := nofun

theorem atEnd_comma (rest : List Char) : AtEnd (',' :: rest) := fun _ hc => by simpa using hc.symm

/-- A text without commas is told from what follows it. -/
theorem takeWhile_append_atEnd {cs rest : List Char} (hcs : ',' ∉ cs) (hrest : AtEnd rest) :
    (cs ++ rest).takeWhile (· ≠ ',') = cs := by
  refine takeWhile_append_eq (fun c hc => ?_) fun c hc => by simp [hrest c hc]
  exact decide_eq_true fun heq => hcs (heq ▸ hc)

/-- As members of two lists the two texts are not made up for by what follows them. -/
def Discerned (t t' : String) : Prop :=
  ∀ {r r' : List Char}, AtEnd r → AtEnd r' → t.toList ++ r = t'.toList ++ r' → t = t' ∧ r = r'

theorem discerned_self (t : String) : Discerned t t :=
  fun _ _ heq => ⟨rfl, List.append_cancel_left heq⟩

theorem discerned_of_comma_not_mem {t t' : String} (h : ',' ∉ t.toList) (h' : ',' ∉ t'.toList) :
    Discerned t t' := by
  intro r r' hr hr' heq
  have htext : t.toList = t'.toList := by
    rw [← takeWhile_append_atEnd h hr, heq]
    exact takeWhile_append_atEnd h' hr'
  rw [htext] at heq
  exact ⟨String.toList_inj.mp htext, List.append_cancel_left heq⟩

/-- Two lists with the same text have the same texts of members. -/
theorem eq_of_intercalate_eq {ts ts' : List String} (h : List.Forall₂ Discerned ts ts')
    {r r' : List Char} (hr : AtEnd r) (hr' : AtEnd r')
    (heq : (",".intercalate ts).toList ++ r = (",".intercalate ts').toList ++ r') :
    ts = ts' ∧ r = r' := by
  induction h with
  | nil => exact ⟨rfl, heq⟩
  | @cons t t' ts ts' ht hts ih =>
    cases hts with
    | nil =>
      rw [String.intercalate_singleton, String.intercalate_singleton] at heq
      obtain ⟨rfl, hrest⟩ := ht hr hr' heq
      exact ⟨rfl, hrest⟩
    | cons =>
      rw [String.intercalate_cons_cons, String.intercalate_cons_cons] at heq
      simp only [String.toList_append, List.append_assoc] at heq
      obtain ⟨rfl, hcomma⟩ := ht (atEnd_comma _) (atEnd_comma _) heq
      obtain ⟨hts, hrest⟩ := ih (List.cons.inj hcomma).2
      exact ⟨by rw [hts], hrest⟩

mutual

theorem discerned_toText (v : Value) {t : String} (h : Shows v t) : Discerned t v.toText := by
  cases h with
  | null => exact discerned_self _
  | bool b => exact discerned_self _
  | int n => exact discerned_self _
  | @float x t h =>
    exact discerned_of_comma_not_mem (comma_not_mem_of_showsNumber h) (comma_not_mem_text x)
  | text s => exact discerned_self _
  | @list members ts h =>
    intro r r' hr hr' heq
    obtain ⟨hts, hrest⟩ := eq_of_intercalate_eq (discerned_memberTexts members h) hr hr' heq
    exact ⟨by rw [hts, Value.toText], hrest⟩

theorem discerned_memberTexts (vs : List Value) {ts : List String} (h : ShowsMembers vs ts) :
    List.Forall₂ Discerned ts (Value.memberTexts vs) := by
  cases h with
  | nil => exact .nil
  | null h => exact .cons (discerned_self _) (discerned_memberTexts _ h)
  | cons hv h h' =>
    rw [Value.memberTexts, hv]
    exact .cons (discerned_toText _ h) (discerned_memberTexts _ h')

end

/-! ## Values -/

theorem shows_list_iff {members : List Value} {t : String} :
    Shows (.list members) t ↔ ∃ ts, ShowsMembers members ts ∧ t = ",".intercalate ts := by
  constructor
  · intro h
    cases h with
    | list h => exact ⟨_, h, rfl⟩
  · rintro ⟨ts, h, rfl⟩
    exact .list h

/-- The text of a list is one of a browser exactly when all texts of its members are. -/
theorem shows_list_toText_iff {members : List Value} :
    Shows (.list members) (Value.list members).toText ↔
      ShowsMembers members (Value.memberTexts members) := by
  rw [shows_list_iff, Value.toText]
  constructor
  · rintro ⟨ts, h, heq⟩
    have hdiscerned := discerned_memberTexts members h
    have heq := congrArg (fun t : String => t.toList ++ []) heq.symm
    obtain ⟨rfl, -⟩ := eq_of_intercalate_eq hdiscerned atEnd_nil atEnd_nil heq
    exact h
  · intro h
    exact ⟨_, h, rfl⟩

theorem showsMembers_cons_iff {v : Value} {vs : List Value} {t : String} {ts : List String} :
    ShowsMembers (v :: vs) (t :: ts) ↔
      (if v.isNull then t = "" else Shows v t) ∧ ShowsMembers vs ts := by
  constructor
  · intro h
    cases h with
    | null h => exact ⟨rfl, h⟩
    | cons hv h h' => exact ⟨by rwa [hv], h'⟩
  · rintro ⟨h, h'⟩
    cases hv : v.isNull with
    | false => exact .cons hv (by rwa [hv] at h) h'
    | true =>
      rw [hv] at h
      cases v with
      | null =>
        cases h
        exact .null h'
      | _ => cases hv

theorem isModerate_of_floats_eq_nil {v : Value} (h : v.floats = []) :
    ∀ x ∈ v.floats, x.IsModerate := by
  simp [h]

mutual

/-- The text of a value is one of a browser exactly when the texts of its numbers are. -/
theorem shows_toText_iff (v : Value) : Shows v v.toText ↔ ∀ x ∈ v.floats, x.IsModerate := by
  cases v with
  | null => exact iff_of_true .null (isModerate_of_floats_eq_nil rfl)
  | bool b => exact iff_of_true (.bool b) (isModerate_of_floats_eq_nil rfl)
  | int n => exact iff_of_true (.int n) (isModerate_of_floats_eq_nil rfl)
  | float x =>
    have hiff : Shows (.float x) x.text ↔ ShowsNumber x x.text :=
      ⟨fun h => by cases h with | float h => exact h, .float⟩
    rw [Value.toText, hiff, showsNumber_text_iff, Value.floats, List.forall_mem_singleton]
  | text s => exact iff_of_true (.text s) (isModerate_of_floats_eq_nil rfl)
  | list members =>
    rw [shows_list_toText_iff, Value.floats]
    exact showsMembers_memberTexts_iff members

theorem showsMembers_memberTexts_iff (vs : List Value) :
    ShowsMembers vs (Value.memberTexts vs) ↔ ∀ x ∈ Value.floatsOf vs, x.IsModerate := by
  cases vs with
  | nil => exact iff_of_true .nil (by simp [Value.floatsOf])
  | cons v vs =>
    rw [Value.memberTexts, Value.floatsOf, List.forall_mem_append, showsMembers_cons_iff,
      showsMembers_memberTexts_iff vs]
    refine and_congr_left fun _ => ?_
    cases hv : v.isNull with
    | false => exact shows_toText_iff v
    | true =>
      cases v with
      | null => exact iff_of_true rfl (isModerate_of_floats_eq_nil rfl)
      | _ => cases hv

end

mutual

/-- A browser has a text for every value. -/
theorem exists_shows (v : Value) : ∃ t, Shows v t := by
  cases v with
  | null => exact ⟨_, .null⟩
  | bool b => exact ⟨_, .bool b⟩
  | int n => exact ⟨_, .int n⟩
  | float x =>
    obtain ⟨t, h⟩ := exists_showsNumber x
    exact ⟨t, .float h⟩
  | text s => exact ⟨_, .text s⟩
  | list members =>
    obtain ⟨ts, h⟩ := exists_showsMembers members
    exact ⟨_, .list h⟩

theorem exists_showsMembers (vs : List Value) : ∃ ts, ShowsMembers vs ts := by
  cases vs with
  | nil => exact ⟨_, .nil⟩
  | cons v vs =>
    obtain ⟨ts, hts⟩ := exists_showsMembers vs
    obtain ⟨t, ht⟩ := exists_shows v
    cases hv : v.isNull with
    | false => exact ⟨_, .cons hv ht hts⟩
    | true => exact ⟨_, showsMembers_cons_iff.mpr ⟨by rw [hv, if_pos rfl], hts⟩⟩

end

end Browser

/-! ## Conditions -/

/-- The texts that a condition quotes. -/
def Sql.Condition.quotes (c : Condition) : List String := c.operands.filterMap (Operand.text? id)

/-- Whether an equality or a membership writes the value as its text. -/
def Value.isQuoted (v : Value) : Bool := !v.isNull && !v.isNumeric

/-- The values whose texts the condition of an operator quotes. -/
def Operator.quotedValues (op : Operator) (v : Value) : List Value :=
  match op with
  | contains | beginsWith | endsWith => [v]
  | isNull | isNotNull => []
  | less | greater | atMost | atLeast => [v].filter fun w => !w.isNumeric
  | isIn => v.members.filter Value.isQuoted
  | equal | notEqual | other => [v].filter Value.isQuoted

/-- Every text that the condition of an operator quotes is one that the user saw, in the pattern of
a text match. -/
def Operator.QuotesShown (op : Operator) (column : Sql.ColumnRef) (v : Value) : Prop :=
  List.Forall₂ (fun w quote => ∃ shown, Browser.Shows w shown ∧
    quote = String.ofList (op.pattern shown.toList)) (op.quotedValues v)
    (op.condition column v).quotes

namespace Value

theorem text?_operand (normalize : Bool) (v : Value) :
    (v.operand normalize).text? id = if v.isQuoted then some v.toText else none := by
  unfold isQuoted isNumeric
  cases hnumeral : v.numeral? with
  | some numeral =>
    rw [operand_of_numeral? hnumeral]
    simp [Operand.text?]
  | none =>
    cases v with
    | null => rfl
    | text s => cases normalize <;> simp [operand, hnumeral, Operand.text?, isNull, toText]
    | _ => simp [operand, hnumeral, Operand.text?, isNull]

theorem text?_orderingOperand (v : Value) :
    v.orderingOperand.text? id = if v.isNumeric then none else some v.toText := by
  unfold orderingOperand isNumeric
  cases v.numeral? <;> rfl

/-- The texts of operands, one for each value that is neither null nor a number. -/
theorem filterMap_text?_operand (normalize : Bool) (vs : List Value) :
    (vs.map (operand normalize)).filterMap (Operand.text? id) =
      (vs.filter isQuoted).map toText := by
  induction vs with
  | nil => rfl
  | cons v vs ih =>
    rw [List.map_cons, List.filterMap_cons, ih, text?_operand, List.filter_cons]
    cases v.isQuoted <;> rfl

end Value

namespace Operator

theorem ofList_pattern {op : Operator} (hop : op.isTextMatch = false) (text : String) :
    String.ofList (op.pattern text.toList) = text := by
  cases op with
  | contains | beginsWith | endsWith => cases hop
  | _ => simp [pattern, isOpenBefore, isOpenBehind]

theorem pattern_injective (op : Operator) {a b : List Char} (h : op.pattern a = op.pattern b) :
    a = b :=
  List.append_cancel_left (List.append_cancel_right h)

/-- The texts that a condition quotes are those of its quoted values. -/
theorem quotes_condition (op : Operator) (column : Sql.ColumnRef) (v : Value) :
    (op.condition column v).quotes =
      (op.quotedValues v).map fun w => String.ofList (op.pattern w.toText.toList) := by
  cases hop : op.isTextMatch with
  | true =>
    rw [condition_of_isTextMatch hop]
    cases op with
    | contains | beginsWith | endsWith => rfl
    | _ => cases hop
  | false =>
    simp only [ofList_pattern hop]
    unfold quotedValues Condition.quotes
    cases op with
    | contains | beginsWith | endsWith => cases hop
    | isNull | isNotNull => rfl
    | less | greater | atMost | atLeast =>
      simp only [condition, Condition.operands, List.filterMap_cons, v.text?_orderingOperand]
      cases h : v.isNumeric <;> simp [h]
    | equal | notEqual | other => exact Value.filterMap_text?_operand _ [v]
    | isIn =>
      cases v with
      | list members =>
        cases members with
        | nil => rfl
        | cons => exact Value.filterMap_text?_operand _ _
      | _ => exact Value.filterMap_text?_operand _ [_]

/-- The quoted texts are those that the user saw exactly when all the numbers in the quoted values
are displayed in plain notation. -/
theorem quotesShown_iff {op : Operator} {column : Sql.ColumnRef} {v : Value} :
    op.QuotesShown column v ↔ ∀ w ∈ op.quotedValues v, ∀ x ∈ w.floats, x.IsModerate := by
  rw [QuotesShown, quotes_condition, List.forall₂_map_right_iff, List.forall₂_same]
  refine forall₂_congr fun w _ => ?_
  rw [← Browser.shows_toText_iff]
  constructor
  · rintro ⟨shown, h, heq⟩
    have hpattern := op.pattern_injective (String.ofList_injective heq)
    rwa [String.toList_inj.mp hpattern]
  · intro h
    exact ⟨_, h, rfl⟩

end Operator

/-- How a value is displayed here and in a browser. -/
structure Value.ShownAlike (v : Value) : Prop where
  /-- There is a text in a browser. -/
  exists_shows : ∃ t, Browser.Shows v t
  /-- The text of the value is such a text exactly when all its numbers are displayed plainly. -/
  shows_iff : Browser.Shows v v.toText ↔ ∀ x ∈ v.floats, x.IsModerate
  /-- The same holds for the texts that the condition of a rule searches for, or quotes. -/
  quotesShown_iff : ∀ (op : Operator) (column : Sql.ColumnRef), op.QuotesShown column v ↔
    ∀ w ∈ op.quotedValues v, ∀ x ∈ w.floats, x.IsModerate

/-- Every value is displayed as in a browser, up to its numbers: these are always in plain notation
here. -/
theorem Value.shownAlike (v : Value) : v.ShownAlike where
  exists_shows := Browser.exists_shows v
  shows_iff := Browser.shows_toText_iff v
  quotesShown_iff _ _ := Operator.quotesShown_iff

/-- The number 10²¹. -/
def Value.sextillion : Value :=
  .float (.finite false (10 ^ 21 * quantaOfOne) (by decide +kernel))

/-- A browser displays 10²¹ by `1e+21`. -/
theorem Value.shows_sextillion : Browser.Shows sextillion "1e+21" ∧
    sextillion.toText = "1000000000000000000000" ∧ ¬ Browser.Shows sextillion sextillion.toText ∧
    (Operator.condition .contains ⟨.primary, "name"⟩ sextillion).sql {} =
      "unaccent(lower(CAST(main.\"name\" AS TEXT))) LIKE " ++
        "unaccent(lower('%1000000000000000000000%'))" ∧
    ¬ Operator.QuotesShown .contains ⟨.primary, "name"⟩ sextillion := by
  have hexact : Decimal.worth ⟨1, 21⟩ = Decimal.worthOfQuanta (10 ^ 21 * quantaOfOne) := by
    rw [Browser.worth_power, Decimal.worthOfQuanta, Nat.cast_mul,
      mul_div_cancel_right₀ _ Decimal.cast_quantaOfOne_pos.ne']
    norm_num
  have hshortest : Browser.IsShortest (10 ^ 21 * quantaOfOne) ⟨1, 21⟩ := by
    refine ⟨by decide +kernel, fun d _ => ?_, fun d _ _ => ?_⟩
    · exact List.length_pos_iff.mpr (areDigits_digitText d.digits).1
    · rw [Decimal.distance, hexact, sub_self, abs_zero]
      exact abs_nonneg _
  have hmoderate : ¬ ∀ x ∈ sextillion.floats, x.IsModerate := by
    have hlarge : Decimal.rounded ⟨1, 21⟩ ≤ 10 ^ 21 * quantaOfOne := by decide +kernel
    have hpos : 10 ^ 21 * quantaOfOne ≠ 0 := by decide +kernel
    intro h
    rcases h _ (List.mem_singleton.mpr rfl) with hzero | ⟨-, hlt⟩
    · exact hpos hzero
    · exact Nat.not_lt.mpr hlarge hlt
  refine ⟨?_, by decide +kernel, ?_, by decide +kernel, ?_⟩
  · exact .float (.finite (Nat.mul_pos (by decide) quantaOfOne_pos) hshortest)
  · rwa [Browser.shows_toText_iff]
  · rw [Operator.quotesShown_iff]
    exact fun h => hmoderate (h _ (List.mem_singleton.mpr rfl))

end FilterSelect
