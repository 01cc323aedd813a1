import FilterSelect.Proofs.Number.Binary64
import FilterSelect.Value.Basic

/-!
# Number literals are plain

The literal of a numeric value is the only text of a request that a statement holds without quotes.
It is plain: an optional minus, digits, and possibly a point with digits behind it. So it has no
exponent, and no word such as the names of the infinities.

* `Value.exists_of_numeral?`: where the literal of a numeric value comes from.
* `Value.isPlain_of_numeral?`: the literal of every numeric value is plain.
-/

namespace FilterSelect

/-- One digit or more. -/
def AreDigits (cs : List Char) : Prop := cs ≠ [] ∧ ∀ c ∈ cs, c.isDigit = true

/-- A number without a sign: digits, and possibly a point and more digits. -/
inductive IsUnsigned : List Char → Prop
  | whole {cs : List Char} (h : AreDigits cs) : IsUnsigned cs
  | fraction {cs ds : List Char} (h : AreDigits cs) (h' : AreDigits ds) :
    IsUnsigned (cs ++ '.' :: ds)

/-- A number with an optional minus. -/
inductive IsPlain : List Char → Prop
  | unsigned {cs : List Char} (h : IsUnsigned cs) : IsPlain cs
  | negative {cs : List Char} (h : IsUnsigned cs) : IsPlain ('-' :: cs)

namespace AreDigits

theorem append {cs ds : List Char} (h : AreDigits cs) (h' : ∀ c ∈ ds, c.isDigit = true) :
    AreDigits (cs ++ ds) := by
  refine ⟨by simp [h.1], fun c hc => ?_⟩
  rcases List.mem_append.mp hc with hc | hc
  · exact h.2 c hc
  · exact h' c hc

theorem prepend {cs ds : List Char} (h : ∀ c ∈ cs, c.isDigit = true) (h' : AreDigits ds) :
    AreDigits (cs ++ ds) := by
  refine ⟨by simp [h'.1], fun c hc => ?_⟩
  rcases List.mem_append.mp hc with hc | hc
  · exact h c hc
  · exact h'.2 c hc

end AreDigits

theorem IsUnsigned.exists_digit {cs : List Char} (h : IsUnsigned cs) :
    ∃ c ds, cs = c :: ds ∧ c.isDigit = true := by
  cases h with
  | whole h =>
    obtain ⟨c, ds, rfl⟩ := List.exists_cons_of_ne_nil h.1
    exact ⟨c, ds, rfl, h.2 c List.mem_cons_self⟩
  | fraction h _ =>
    obtain ⟨c, ds, rfl⟩ := List.exists_cons_of_ne_nil h.1
    exact ⟨c, _, rfl, h.2 c List.mem_cons_self⟩

/-- The characters of a number without a sign. -/
theorem IsUnsigned.isDigit_or {cs : List Char} (h : IsUnsigned cs) :
    ∀ c ∈ cs, c.isDigit = true ∨ c = '.' := by
  intro c hc
  cases h with
  | whole h => exact .inl (h.2 c hc)
  | fraction h h' =>
    rcases List.mem_append.mp hc with hc | hc
    · exact .inl (h.2 c hc)
    · exact (List.mem_cons.mp hc).symm.imp_left (h'.2 c)

/-- The characters of a number with an optional minus. -/
theorem IsPlain.isDigit_or {cs : List Char} (h : IsPlain cs) :
    ∀ c ∈ cs, c.isDigit = true ∨ c = '.' ∨ c = '-' := by
  intro c hc
  cases h with
  | unsigned h => exact (h.isDigit_or c hc).imp_right .inl
  | negative h =>
    rcases List.mem_cons.mp hc with hc | hc
    · exact .inr (.inr hc)
    · exact (h.isDigit_or c hc).imp_right .inl

theorem isDigit_of_mem_replicate {n : Nat} : ∀ c ∈ List.replicate n '0', c.isDigit = true := by
  intro c hc
  rw [List.eq_of_mem_replicate hc]
  rfl

theorem areDigits_digitText (n : Nat) : AreDigits (Decimal.digitText n) :=
  ⟨Nat.toDigits_ne_nil, fun _ hc => Nat.isDigit_of_mem_toDigits (by decide) (by decide) hc⟩

/-- The plain notation of a decimal. -/
theorem Decimal.isUnsigned_positional (d : Decimal) : IsUnsigned d.positional := by
  have hd := areDigits_digitText d.digits
  unfold positional
  simp only []
  generalize digitText d.digits = ds at hd ⊢
  split
  · exact .whole (hd.append isDigit_of_mem_replicate)
  · rename_i e _
    split
    · rename_i hlt
      -- The point stands between the digits, with at least one on either side of it.
      refine .fraction ⟨?_, fun c hc => hd.2 c (List.mem_of_mem_take hc)⟩
        ⟨?_, fun c hc => hd.2 c (List.mem_of_mem_drop hc)⟩
      · intro h
        have := congrArg List.length h
        simp only [List.length_take, List.length_nil] at this
        omega
      · intro h
        have := congrArg List.length h
        simp only [List.length_drop, List.length_nil] at this
        omega
    · rw [List.append_assoc]
      show IsUnsigned (['0'] ++ '.' :: (List.replicate _ '0' ++ ds))
      exact .fraction ⟨by simp, by simp⟩ (.prepend isDigit_of_mem_replicate hd)

theorem Binary64.isPlain_text {x : Binary64} (h : x.isFinite = true) : IsPlain x.text.toList := by
  cases x with
  | nan => cases h
  | infinite => cases h
  | finite negative quanta _ =>
    simp only [text]
    split
    · exact .unsigned (.whole ⟨by simp, by simp⟩)
    · have hp := Decimal.isUnsigned_positional (Decimal.shortest .up quanta)
      rw [String.toList_ofList]
      split
      · exact .negative hp
      · exact .unsigned hp

theorem isPlain_toString (n : Int) : IsPlain (toString n).toList := by
  rw [Int.toString_eq_repr, Int.repr_eq_if]
  split
  · rw [Nat.toList_repr]
    exact .unsigned (.whole (areDigits_digitText _))
  · rw [String.toList_append, Nat.toList_repr]
    exact .negative (.whole (areDigits_digitText _))

namespace Numeral

theorem lt_of_word? {radix : Nat} {cs : List Char} {n : Nat} (h : word? radix cs = some n) :
    n < 2 ^ 64 := by
  have hlt (digits : List Char)
      (h : (if digits.isEmpty then none else (number? radix digits).filter (· < Nat.pow 2 64)) =
        some n) : n < 2 ^ 64 := by
    split at h
    · cases h
    · simpa using (Option.filter_eq_some_iff.mp h).2
  unfold word? at h
  simp only [] at h
  split at h
  · exact hlt _ h
  · exact hlt _ h

/-- A text is only ever read as a finite number. -/
theorem isFinite_of_read? {text : String} {x : Binary64} (h : read? text = some x) :
    x.isFinite = true := by
  unfold read? at h
  simp only [] at h
  split at h
  · obtain ⟨n, hn, rfl⟩ := Option.map_eq_some_iff.mp h
    exact Binary64.isFinite_ofNat (lt_of_word? hn)
  · exact (Option.filter_eq_some_iff.mp h).2

end Numeral

namespace Value

variable {v : Value} {numeral : String}

/-- A numeral has all the digits of a whole number, or it is the text of a finite number. -/
theorem exists_of_numeral? (h : v.numeral? = some numeral) :
    (∃ n, v = .int n ∧ numeral = toString n.toInt) ∨
      ∃ x : Binary64, x.isFinite = true ∧ numeral = x.text := by
  have hread {s : String} (h : (Numeral.read? s).map Binary64.text = some numeral) :
      ∃ x : Binary64, x.isFinite = true ∧ numeral = x.text := by
    obtain ⟨x, hx, rfl⟩ := Option.map_eq_some_iff.mp h
    exact ⟨x, Numeral.isFinite_of_read? hx, rfl⟩
  cases v with
  | null => cases h
  | bool => cases h
  | int n =>
    cases h
    exact .inl ⟨n, rfl, rfl⟩
  | float x =>
    unfold numeral? at h
    simp only [] at h
    split at h
    · rename_i hx
      cases h
      exact .inr ⟨x, hx, rfl⟩
    · cases h
  | text s => exact .inr (hread h)
  | list members => exact .inr (hread h)

theorem isPlain_of_numeral? (h : v.numeral? = some numeral) : IsPlain numeral.toList := by
  rcases exists_of_numeral? h with ⟨n, -, rfl⟩ | ⟨x, hx, rfl⟩
  · exact isPlain_toString _
  · exact Binary64.isPlain_text hx

end Value

end FilterSelect
