import FilterSelect.Compiler.Condition
import FilterSelect.Proofs.Sql.Like
import FilterSelect.Proofs.Steps

/-!
# What the text matches find

A text match writes its value into a pattern as it is. So the value is itself read as a pattern: as
long as it has no wildcards, the match finds the texts that hold the value, begin with it, or end
with it. A wildcard in the value always makes it find other texts, or none at all.

* `Operator.Finds`: the texts that a text match is to find.
* `Operator.pattern`: the pattern of a text match.
* `covers_pattern_iff`: a value without wildcards is found where it should be.
* `exists_covers_pattern`: any other value is found in a text where it should not be.
* `Rule.finds_condition_iff`: the condition of a text match finds the right texts exactly for a value
  without wildcards.
-/

namespace FilterSelect

open Sql (Condition)
open Sql.Like (Part parts? covers plainest wildcards)

/-! ## Patterns -/

namespace Operator

/-- The text is one that a text match with the value is to find. -/
def Finds (op : Operator) (value text : List Char) : Prop :=
  match op with
  | contains => value <:+: text
  | beginsWith => value <+: text
  | endsWith => value <:+ text
  | _ => False

instance (op : Operator) (value text : List Char) : Decidable (op.Finds value text) :=
  match op with
  | contains => inferInstanceAs (Decidable (value <:+: text))
  | beginsWith => inferInstanceAs (Decidable (value <+: text))
  | endsWith => inferInstanceAs (Decidable (value <:+ text))
  | equal | notEqual | less | greater | atMost | atLeast | isNull | isNotNull | isIn | other =>
    inferInstanceAs (Decidable False)

/-- Whether anything may stand in front of the value. -/
def isOpenBefore : Operator → Bool
  | contains | endsWith => true
  | _ => false

/-- Whether anything may stand behind the value. -/
def isOpenBehind : Operator → Bool
  | contains | beginsWith => true
  | _ => false

/-- The pattern of a text match. -/
def pattern (op : Operator) (value : List Char) : List Char :=
  (if op.isOpenBefore then ['%'] else []) ++ value ++ (if op.isOpenBehind then ['%'] else [])

theorem finds_iff {op : Operator} (hop : op.isTextMatch = true) {value text : List Char} :
    op.Finds value text ↔ ∃ a b, text = a ++ value ++ b ∧ (op.isOpenBefore = false → a = []) ∧
      (op.isOpenBehind = false → b = []) := by
  cases op with
  | contains => simp [Finds, List.IsInfix, isOpenBefore, isOpenBehind, eq_comm]
  | beginsWith => simp [Finds, List.IsPrefix, isOpenBefore, isOpenBehind, eq_comm]
  | endsWith => simp [Finds, List.IsSuffix, isOpenBefore, isOpenBehind, eq_comm]
  | _ => cases hop

theorem Finds.isInfix {op : Operator} {value text : List Char} (h : op.Finds value text) :
    value <:+: text := by
  cases op with
  | contains => exact h
  | beginsWith => exact List.IsPrefix.isInfix h
  | endsWith => exact List.IsSuffix.isInfix h
  | _ => cases h

/-- The parts that stand for anything, if anything may stand at a place. -/
def anyIf (isOpen : Bool) : List Part := if isOpen then [.any] else []

theorem parts?_open (isOpen : Bool) :
    parts? (if isOpen then ['%'] else []) = some (anyIf isOpen) := by
  cases isOpen <;> rfl

/-- The pattern up to some place of the value, and what follows there. -/
theorem parts?_before {front : List Char} {ps : List Part} (h : parts? front = some ps)
    (op : Operator) (rest : List Char) :
    parts? ((if op.isOpenBefore then ['%'] else []) ++ front ++ rest) =
      (parts? rest).map (anyIf op.isOpenBefore ++ ps ++ ·) := by
  have hfront := Sql.Like.parts?_append (parts?_open op.isOpenBefore) front
  rw [h, Option.map_some] at hfront
  exact Sql.Like.parts?_append hfront rest

theorem parts?_pattern (op : Operator) {value : List Char} {ps : List Part}
    (h : parts? value = some ps) : parts? (op.pattern value) =
      some (anyIf op.isOpenBefore ++ ps ++ anyIf op.isOpenBehind) := by
  rw [pattern, parts?_before h, parts?_open, Option.map_some]

/-! ## Values without wildcards -/

theorem covers_anyIf {isOpen : Bool} {text : List Char} :
    covers (anyIf isOpen) text = true ↔ (isOpen = false → text = []) := by
  cases isOpen with
  | false => simp [anyIf, covers]
  | true =>
    simp only [anyIf, if_true, Sql.Like.covers_any_cons, Bool.true_eq_false, false_imp_iff, iff_true]
    exact ⟨text, [], by simp, rfl⟩

/-- A value without wildcards is found where it should be. -/
theorem covers_pattern_iff {op : Operator} (hop : op.isTextMatch = true) {value : List Char}
    (hvalue : ∀ c ∈ value, c ∉ wildcards) (text : List Char) :
    (parts? (op.pattern value)).map (covers · text) = some true ↔ op.Finds value text := by
  rw [parts?_pattern op (Sql.Like.parts?_of_not_mem_wildcards hvalue), Option.map_some,
    Option.some_inj, finds_iff hop, Sql.Like.covers_append]
  simp only [Sql.Like.covers_append, covers_anyIf, Sql.Like.covers_map_char]
  constructor
  · rintro ⟨ab, c, rfl, ⟨a, b, rfl, ha, rfl⟩, hc⟩
    exact ⟨a, c, rfl, ha, hc⟩
  · rintro ⟨a, c, rfl, ha, hc⟩
    exact ⟨a ++ value, c, rfl, ⟨a, value, rfl, ha, rfl⟩, hc⟩

/-! ## Values with wildcards -/

theorem plainest_anyIf (isOpen : Bool) : plainest (anyIf isOpen) = [] := by cases isOpen <;> rfl

/-- The value is not in a text that is no longer than it is and differs from it. -/
theorem not_finds_of_length_le {op : Operator} {value text : List Char}
    (hlength : text.length ≤ value.length) (hne : value ≠ text) : ¬ op.Finds value text :=
  fun h => hne (h.isInfix.eq_of_length (Nat.le_antisymm h.isInfix.length_le hlength))

/-- A value with wildcards makes the pattern invalid, or is found where it should not be. -/
theorem exists_covers_pattern (op : Operator) {value : List Char}
    (hvalue : ¬ ∀ c ∈ value, c ∉ wildcards) : parts? (op.pattern value) = none ∨
      ∃ text, (parts? (op.pattern value)).map (covers · text) = some true ∧
        ¬ op.Finds value text := by
  cases hps : parts? value with
  | some ps =>
    refine .inr ⟨plainest ps, ?_, ?_⟩
    · have hcovers := Sql.Like.covers_plainest (anyIf op.isOpenBefore ++ ps ++ anyIf op.isOpenBehind)
      rw [Sql.Like.plainest_append, Sql.Like.plainest_append, plainest_anyIf, plainest_anyIf,
        List.nil_append, List.append_nil] at hcovers
      rw [parts?_pattern op hps, Option.map_some, hcovers]
    · refine not_finds_of_length_le (Sql.Like.length_plainest_le hps) fun heq => ?_
      exact hvalue (Sql.Like.not_mem_wildcards hps heq.symm)
  | none =>
    -- The value ends in a backslash, which takes the `%` behind it as a character.
    obtain ⟨front, ps, rfl, hfront⟩ := Sql.Like.exists_of_parts?_eq_none hps
    have hpattern : parts? (op.pattern (front ++ ['\\'])) =
        (parts? ('\\' :: if op.isOpenBehind then ['%'] else [])).map
          (anyIf op.isOpenBefore ++ ps ++ ·) := by
      rw [← parts?_before hfront, pattern]
      simp
    cases hopen : op.isOpenBehind with
    | false =>
      rw [hopen] at hpattern
      exact .inl hpattern
    | true =>
      rw [hopen] at hpattern
      refine .inr ⟨plainest ps ++ ['%'], ?_, ?_⟩
      · have hcovers := Sql.Like.covers_plainest (anyIf op.isOpenBefore ++ ps ++ [.char '%'])
        rw [Sql.Like.plainest_append, Sql.Like.plainest_append, plainest_anyIf] at hcovers
        rw [hpattern]
        exact congrArg some hcovers
      · refine not_finds_of_length_le ?_ fun heq => ?_
        · simpa using Sql.Like.length_plainest_le hfront
        · have hlast := (List.append_inj' heq rfl).2
          cases hlast

/-- A text match finds the texts that it names, with its value's text, exactly when there is no
wildcard in the value. -/
theorem finds_pattern_iff {op : Operator} (hop : op.isTextMatch = true) (value : List Char) :
    (∀ text, ∃ found, (parts? (op.pattern value)).map (covers · text) = some found ∧
        (found = true ↔ op.Finds value text)) ↔ ∀ c ∈ value, c ∉ wildcards := by
  constructor
  · intro h
    by_contra hvalue
    rcases exists_covers_pattern op hvalue with hnone | ⟨text, hcovers, hfinds⟩
    · obtain ⟨found, hfound, -⟩ := h []
      rw [hnone] at hfound
      cases hfound
    · obtain ⟨found, hfound, hiff⟩ := h text
      rw [hcovers] at hfound
      exact hfinds (hiff.mp (Option.some.inj hfound).symm)
  · intro hvalue text
    have hparts := parts?_pattern op (Sql.Like.parts?_of_not_mem_wildcards hvalue)
    refine ⟨_, congrArg (Option.map (covers · text)) hparts, ?_⟩
    rw [← covers_pattern_iff hop hvalue, hparts]
    simp

theorem condition_of_isTextMatch {op : Operator} (hop : op.isTextMatch = true)
    (column : Sql.ColumnRef) (v : Value) :
    op.condition column v = .isLike column (String.ofList (op.pattern v.toText.toList)) := by
  cases op with
  | contains | beginsWith | endsWith =>
    simp [condition, pattern, isOpenBefore, isOpenBehind, ← String.toList_inj]
  | _ => cases hop

end Operator

/-! ## Rules -/

/-- The condition of a text match is valid and finds the texts that it names exactly when its value
shows a text without wildcards. Normalizing is left out: texts and patterns stand as they are. -/
theorem Rule.finds_condition_iff {o : Options} {s : Scope} {x : Rule} {c : Condition}
    {op : Operator} (h : x.condition s = .ok c) (hop : x.operator = some op)
    (hmatch : op.isTextMatch = true) : ∃ column pattern, s.column x.field = .ok column ∧
      c.sql o = Sql.normalized o ("CAST(" ++ column.sql o ++ " AS TEXT)") ++ " LIKE " ++
        Sql.normalized o (Sql.literal pattern) ∧
      ((∀ text : String, ∃ found, Sql.Like.holds? pattern text = some found ∧
          (found = true ↔ op.Finds x.operand.toText.toList text.toList)) ↔
        ∀ ch ∈ x.operand.toText.toList, ch ∉ wildcards) := by
  obtain ⟨column, hcolumn, hc⟩ := bind_eq_ok_iff.mp h
  cases hc
  refine ⟨column, String.ofList (op.pattern x.operand.toText.toList), hcolumn, ?_, ?_⟩
  · rw [hop, Option.getD_some, Operator.condition_of_isTextMatch hmatch]
    rfl
  · rw [← Operator.finds_pattern_iff hmatch]
    simp only [Sql.Like.holds?, String.toList_ofList]
    exact ⟨fun h text => by simpa using h (String.ofList text), fun h text => h text.toList⟩

/-- A search for names that begin with a text and a number. -/
def Rule.beginning : Rule := ⟨"name", some .beginsWith, some (.list [.text "O'Neil", .int 7])⟩

theorem Rule.finds_beginning : ∃ c column pattern, beginning.condition ⟨"band", []⟩ = .ok c ∧
    Scope.column ⟨"band", []⟩ "name" = .ok column ∧
    c.sql {} = "unaccent(lower(CAST(main.\"name\" AS TEXT))) LIKE unaccent(lower('O''Neil,7%'))" ∧
    c.sql {} = Sql.normalized {} ("CAST(" ++ column.sql {} ++ " AS TEXT)") ++ " LIKE " ++
      Sql.normalized {} (Sql.literal pattern) ∧
    ∀ text : String, ∃ found, Sql.Like.holds? pattern text = some found ∧
      (found = true ↔ Operator.Finds .beginsWith "O'Neil,7".toList text.toList) := by
  obtain ⟨column, pattern, hcolumn, hsql, hfinds⟩ :=
    finds_condition_iff (o := {}) (s := ⟨"band", []⟩) (x := beginning) rfl rfl rfl
  have htext : beginning.operand.toText = "O'Neil,7" := by decide +kernel
  have hplain : "O'Neil,7".toList.all (fun ch => ch ∉ wildcards) = true := by decide +kernel
  rw [htext] at hfinds
  refine ⟨_, column, pattern, rfl, hcolumn, by decide +kernel, hsql, hfinds.mpr fun ch hch => ?_⟩
  exact of_decide_eq_true (List.all_eq_true.mp hplain ch hch)

/-- A search for names that hold `50%` finds one that does not, a search for names that begin with
`ac\` misses one that does, and the pattern for names that end with `ac\` is invalid. -/
theorem Rule.misreads_wildcards :
    (∃ c, Rule.condition ⟨"band", []⟩ ⟨"name", some .contains, some (.text "50%")⟩ = .ok c ∧
      c.sql {} = "unaccent(lower(CAST(main.\"name\" AS TEXT))) LIKE unaccent(lower('%50%%'))" ∧
      Sql.Like.holds? "%50%%" "500 Miles" = some true ∧
      ¬ Operator.Finds .contains "50%".toList "500 Miles".toList) ∧
    (∃ c, Rule.condition ⟨"band", []⟩ ⟨"name", some .beginsWith, some (.text "ac\\")⟩ = .ok c ∧
      c.sql {} = "unaccent(lower(CAST(main.\"name\" AS TEXT))) LIKE unaccent(lower('ac\\%'))" ∧
      Sql.Like.holds? "ac\\%" "ac\\dc" = some false ∧
      Operator.Finds .beginsWith "ac\\".toList "ac\\dc".toList) ∧
    ∃ c, Rule.condition ⟨"band", []⟩ ⟨"name", some .endsWith, some (.text "ac\\")⟩ = .ok c ∧
      c.sql {} = "unaccent(lower(CAST(main.\"name\" AS TEXT))) LIKE unaccent(lower('%ac\\'))" ∧
      ∀ text, Sql.Like.holds? "%ac\\" text = none := by
  refine ⟨⟨_, rfl, by decide +kernel, by decide +kernel, by decide +kernel⟩,
    ⟨_, rfl, by decide +kernel, by decide +kernel, by decide +kernel⟩,
    ⟨_, rfl, by decide +kernel, fun text => ?_⟩⟩
  have hparts : parts? "%ac\\".toList = none := by decide +kernel
  exact congrArg (Option.map (covers · text.toList)) hparts

end FilterSelect
