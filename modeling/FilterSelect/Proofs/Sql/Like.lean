import Mathlib.Data.List.Infix

/-!
# Patterns of LIKE

A pattern is read from left to right: `%` stands for any characters, `_` for any one character, a
backslash takes the character behind it as it is, and every other character stands for itself. A
backslash with nothing behind it makes the pattern invalid.

* `Like.parts?`: the parts of a pattern, if it is valid.
* `Like.covers`: whether a text is what the parts stand for, from its start to its end.
* `Like.covers_append`: parts one after the other cover texts one after the other.
* `Like.covers_plainest`: the shortest text that parts stand for.
* `Like.not_mem_wildcards`: a pattern that is as long as this text and equal to it has no wildcards.
-/

namespace FilterSelect.Sql.Like

/-- What a place of a pattern stands for. -/
inductive Part
  /-- Any characters, or none. -/
  | any
  /-- Any one character. -/
  | one
  | char (c : Char)
  deriving DecidableEq, Repr

/-- What a character stands for that no backslash precedes. -/
def Part.ofChar (c : Char) : Part :=
  if c = '%' then .any else if c = '_' then .one else .char c

/-- The characters that a pattern does not have stand for themselves. -/
def wildcards : List Char := ['%', '_', '\\']

/-- The parts of a pattern; none when a backslash stands at its end. -/
def parts? : List Char → Option (List Part)
  | [] => some []
  | c :: cs =>
    if c = '\\' then
      match cs with
      | [] => none
      | d :: ds => (parts? ds).map (.char d :: ·)
    else (parts? cs).map (Part.ofChar c :: ·)

/-- Whether the text is what the parts stand for. -/
def covers : List Part → List Char → Bool
  | [], text => text.isEmpty
  | .any :: ps, text => text.tails.any (covers ps)
  | .one :: ps, text =>
    match text with
    | [] => false
    | _ :: cs => covers ps cs
  | .char d :: ps, text =>
    match text with
    | [] => false
    | c :: cs => c == d && covers ps cs

/-- Whether a text is like a pattern; none when the pattern is invalid. -/
def holds? (pattern text : String) : Option Bool :=
  (parts? pattern.toList).map fun ps => covers ps text.toList

example : holds? "J_n%\\%" "Jan: 7%" = some true := by decide +kernel

/-! ## Reading a pattern -/

theorem parts?_cons_of_ne {c : Char} (hc : c ≠ '\\') (cs : List Char) :
    parts? (c :: cs) = (parts? cs).map (Part.ofChar c :: ·) := by
  cases cs <;> simp [parts?, hc]

theorem parts?_append {cs : List Char} {ps : List Part} (h : parts? cs = some ps)
    (ds : List Char) : parts? (cs ++ ds) = (parts? ds).map (ps ++ ·) := by
  fun_induction parts? cs generalizing ps with
  | case1 =>
    cases h
    simp
  | case2 => cases h
  | case3 d cs ih =>
    obtain ⟨qs, hqs, rfl⟩ := Option.map_eq_some_iff.mp h
    simp [parts?, ih hqs, Function.comp_def]
  | case4 c cs hc ih =>
    obtain ⟨qs, hqs, rfl⟩ := Option.map_eq_some_iff.mp h
    simp [parts?_cons_of_ne hc, ih hqs, Function.comp_def]

/-- Only a backslash at its end makes a pattern invalid. -/
theorem exists_of_parts?_eq_none {cs : List Char} (h : parts? cs = none) :
    ∃ ds ps, cs = ds ++ ['\\'] ∧ parts? ds = some ps := by
  fun_induction parts? cs with
  | case1 => cases h
  | case2 => exact ⟨[], [], rfl, rfl⟩
  | case3 d cs ih =>
    obtain ⟨ds, ps, rfl, hps⟩ := ih (Option.map_eq_none_iff.mp h)
    exact ⟨'\\' :: d :: ds, .char d :: ps, rfl, by simp [parts?, hps]⟩
  | case4 c cs hc ih =>
    obtain ⟨ds, ps, rfl, hps⟩ := ih (Option.map_eq_none_iff.mp h)
    exact ⟨c :: ds, Part.ofChar c :: ps, rfl, by simp [parts?_cons_of_ne hc, hps]⟩

theorem parts?_of_not_mem_wildcards {cs : List Char} (h : ∀ c ∈ cs, c ∉ wildcards) :
    parts? cs = some (cs.map .char) := by
  induction cs with
  | nil => rfl
  | cons c cs ih =>
    have hc := h c List.mem_cons_self
    simp only [wildcards, List.mem_cons, List.not_mem_nil, or_false, not_or] at hc
    rw [parts?_cons_of_ne hc.2.2, ih fun d hd => h d (List.mem_cons_of_mem c hd)]
    simp [Part.ofChar, hc.1, hc.2.1]

/-! ## Covering a text -/

theorem covers_any_cons {ps : List Part} {text : List Char} :
    covers (.any :: ps) text = true ↔ ∃ a b, text = a ++ b ∧ covers ps b = true := by
  simp only [covers, List.any_eq_true, List.mem_tails]
  constructor
  · rintro ⟨b, ⟨a, rfl⟩, hb⟩
    exact ⟨a, b, rfl, hb⟩
  · rintro ⟨a, b, rfl, hb⟩
    exact ⟨b, List.suffix_append a b, hb⟩

theorem covers_append {ps qs : List Part} {text : List Char} : covers (ps ++ qs) text = true ↔
    ∃ a b, text = a ++ b ∧ covers ps a = true ∧ covers qs b = true := by
  induction ps generalizing text with
  | nil => simp [covers]
  | cons p ps ih =>
    cases p with
    | any =>
      rw [List.cons_append, covers_any_cons]
      constructor
      · rintro ⟨a, b, rfl, hb⟩
        obtain ⟨b₁, b₂, rfl, hps, hqs⟩ := ih.mp hb
        exact ⟨a ++ b₁, b₂, by simp, covers_any_cons.mpr ⟨a, b₁, rfl, hps⟩, hqs⟩
      · rintro ⟨a, b, rfl, ha, hqs⟩
        obtain ⟨a₁, a₂, rfl, hps⟩ := covers_any_cons.mp ha
        exact ⟨a₁, a₂ ++ b, by simp, ih.mpr ⟨a₂, b, rfl, hps, hqs⟩⟩
    | one =>
      cases text with
      | nil => simp [covers]
      | cons c cs =>
        simp only [List.cons_append, covers, ih]
        constructor
        · rintro ⟨a, b, rfl, h⟩
          exact ⟨c :: a, b, rfl, h⟩
        · rintro ⟨a, b, hab, ha, hb⟩
          cases a with
          | nil => cases ha
          | cons d a =>
            obtain ⟨rfl, rfl⟩ := List.cons.inj hab
            exact ⟨a, b, rfl, ha, hb⟩
    | char d =>
      cases text with
      | nil => simp [covers]
      | cons c cs =>
        simp only [List.cons_append, covers, ih, Bool.and_eq_true, beq_iff_eq]
        constructor
        · rintro ⟨rfl, a, b, rfl, ha, hb⟩
          exact ⟨c :: a, b, rfl, by simpa [covers] using ha, hb⟩
        · rintro ⟨a, b, hab, ha, hb⟩
          cases a with
          | nil => cases ha
          | cons e a =>
            obtain ⟨rfl, rfl⟩ := List.cons.inj hab
            simp only [Bool.and_eq_true, beq_iff_eq] at ha
            exact ⟨ha.1, a, b, rfl, ha.2, hb⟩

theorem covers_map_char {cs text : List Char} :
    covers (cs.map .char) text = true ↔ text = cs := by
  induction cs generalizing text with
  | nil => simp [covers]
  | cons c cs ih => cases text <;> simp [covers, ih]

/-! ## The shortest text -/

/-- The text that parts stand for with nothing for `%`, and a letter for `_`. -/
def plainest : List Part → List Char
  | [] => []
  | .any :: ps => plainest ps
  | .one :: ps => 'a' :: plainest ps
  | .char c :: ps => c :: plainest ps

theorem plainest_append (ps qs : List Part) : plainest (ps ++ qs) = plainest ps ++ plainest qs := by
  induction ps with
  | nil => rfl
  | cons p ps ih => cases p <;> simp [plainest, ih]

theorem covers_plainest (ps : List Part) : covers ps (plainest ps) = true := by
  induction ps with
  | nil => rfl
  | cons p ps ih =>
    cases p with
    | any => exact covers_any_cons.mpr ⟨[], plainest ps, rfl, ih⟩
    | one => exact ih
    | char c => simpa [plainest, covers] using ih

theorem length_plainest_le {cs : List Char} {ps : List Part} (h : parts? cs = some ps) :
    (plainest ps).length ≤ cs.length := by
  fun_induction parts? cs generalizing ps with
  | case1 =>
    cases h
    exact Nat.le_refl 0
  | case2 => cases h
  | case3 d cs ih =>
    obtain ⟨qs, hqs, rfl⟩ := Option.map_eq_some_iff.mp h
    have := ih hqs
    simp only [plainest, List.length_cons]
    omega
  | case4 c cs hc ih =>
    obtain ⟨qs, hqs, rfl⟩ := Option.map_eq_some_iff.mp h
    have := ih hqs
    unfold Part.ofChar
    split
    · simp only [plainest, List.length_cons]
      omega
    · split <;> simpa [plainest] using this

/-- A wildcard makes a pattern differ from the shortest text that it stands for. -/
theorem not_mem_wildcards {cs : List Char} {ps : List Part} (h : parts? cs = some ps)
    (heq : plainest ps = cs) : ∀ c ∈ cs, c ∉ wildcards := by
  fun_induction parts? cs generalizing ps with
  | case1 => simp
  | case2 => cases h
  | case3 d cs ih =>
    obtain ⟨qs, hqs, rfl⟩ := Option.map_eq_some_iff.mp h
    have hlength := congrArg List.length heq
    have := length_plainest_le hqs
    simp only [plainest, List.length_cons] at hlength
    omega
  | case4 c cs hc ih =>
    obtain ⟨qs, hqs, rfl⟩ := Option.map_eq_some_iff.mp h
    have hle := length_plainest_le hqs
    unfold Part.ofChar at heq
    split at heq
    · have hlength := congrArg List.length heq
      simp only [plainest, List.length_cons] at hlength
      omega
    · rename_i hany
      split at heq
      · rename_i hone
        rw [hone] at heq
        cases (List.cons.inj heq).1
      · rename_i hone
        have htail := ih hqs (List.cons.inj heq).2
        simpa [wildcards, hany, hone, hc] using htail

end FilterSelect.Sql.Like
