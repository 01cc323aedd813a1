import FilterSelect.Proofs.Number.Shortest

/-!
# Numerals are canonical

A numeral goes into a statement as it is, so it has one form only: it is plain, zero has no sign,
and read as a text it is its own numeral. What stands around a number in a text does not show:
blanks beside it are cut off, and a list is a number only as long as it holds nothing but one.

* `IsNegativeZero`: a minus in front of nothing but zeros.
* `Binary64.not_isNegativeZero_text`: no number is displayed so.
* `Value.CanonicalNumeral`: the form of a value's numeral, and what it does not depend on.
* `Value.canonicalNumeral`: so it is for every value.
-/

namespace FilterSelect

/-- A minus, and behind it no digit but zeros. -/
def IsNegativeZero (cs : List Char) : Prop := ∃ ds, cs = '-' :: ds ∧ ∀ c ∈ ds, c = '0' ∨ c = '.'

namespace Value

/-- The numeral of a value, if it has one. -/
structure CanonicalNumeral (v : Value) : Prop where
  /-- It is plain, and no zero with a sign. -/
  isPlain : ∀ numeral, v.numeral? = some numeral →
    IsPlain numeral.toList ∧ ¬ IsNegativeZero numeral.toList
  /-- Unless it has all the digits of a whole number, it is its own numeral. -/
  reread : ∀ numeral, v.numeral? = some numeral → (∀ n, v ≠ .int n) →
    (text numeral).numeral? = some numeral
  /-- Blanks around a text do not count. -/
  blanks : ∀ s before after, v = .text s → (∀ c ∈ before.toList, Text.isBlank c = true) →
    (∀ c ∈ after.toList, Text.isBlank c = true) →
      (text (before ++ s ++ after)).numeral? = v.numeral?
  /-- Only a list with one member has one. -/
  single : ∀ members, v = .list members → v.isNumeric = true → members.length = 1

end Value

/-! ## Zeros -/

namespace Numeral

theorem eq_zero_of_digits {radix : Nat} {cs : List Char} {n : Nat} (h : Digits radix cs n)
    (hzeros : ∀ c ∈ cs, c = '0') : n = 0 := by
  have hdigit {value : Nat} (h : IsDigitOf radix '0' value) : value = 0 := by
    have hread := digit?_eq_some_iff.mpr h
    rw [digit?_eq_filter, show digit? 16 '0' = some 0 from rfl] at hread
    exact (Option.some.inj (Option.filter_eq_some_iff.mp hread).1).symm
  induction h with
  | single h =>
    rw [hzeros _ List.mem_cons_self] at h
    exact hdigit h
  | append _ h ih =>
    obtain ⟨hzeros, hlast⟩ := List.forall_mem_append.mp hzeros
    rw [hlast _ List.mem_cons_self] at h
    rw [ih hzeros, hdigit h, Nat.zero_mul]

/-- A number with no digit but zeros is zero. -/
theorem eq_zero_of_mantissa {cs : List Char} {d : Decimal} (h : Mantissa cs d)
    (hzeros : ∀ c ∈ cs, c = '0' ∨ c = '.') : d.digits = 0 := by
  have hdigits {ds : List Char} {n : Nat} (h : Digits 10 ds n)
      (hzeros : ∀ c ∈ ds, c = '0' ∨ c = '.') : n = 0 := by
    refine eq_zero_of_digits h fun c hc => (hzeros c hc).resolve_right ?_
    rintro rfl
    exact absurd ((digits_ten_iff.mp h).1.2 _ hc) (by decide)
  cases h with
  | whole h => exact hdigits h hzeros
  | point h =>
    obtain ⟨hwhole, hpart⟩ := List.forall_mem_append.mp hzeros
    exact hdigits h (List.forall_mem_append.mpr ⟨hwhole, (List.forall_mem_cons.mp hpart).2⟩)

end Numeral

theorem Decimal.toBinary64_of_digits_eq_zero {d : Decimal} (h : d.digits = 0) (negative : Bool) :
    d.toBinary64 negative = .zero negative := by
  simp [toBinary64, isHuge, isTiny, h]

theorem not_isNegativeZero_of_mantissa {cs : List Char} {d : Decimal} (h : Mantissa cs d)
    {negative : Bool} (hd : negative = true → d.digits ≠ 0) :
    ¬ IsNegativeZero (if negative then '-' :: cs else cs) := by
  rintro ⟨ds, hds, hzeros⟩
  cases negative with
  | true =>
    cases hds
    exact hd rfl (Numeral.eq_zero_of_mantissa h hzeros)
  | false =>
    obtain ⟨c, tail, rfl, hc⟩ := Numeral.head_of_mantissa h
    cases hds
    simp at hc

theorem not_isNegativeZero_toString (n : Int) : ¬ IsNegativeZero (toString n).toList := by
  rw [toList_toString]
  refine not_isNegativeZero_of_mantissa (.whole (Decimal.digits_digitText n.natAbs)) fun hn => ?_
  have hn : n < 0 := of_decide_eq_true hn
  exact Int.natAbs_ne_zero.mpr (Int.ne_of_lt hn)

/-- The shortest decimal of a number other than zero has a digit other than zero. -/
theorem Binary64.not_isNegativeZero_text (x : Binary64) : ¬ IsNegativeZero x.text.toList := by
  cases x with
  | nan =>
    rintro ⟨ds, hds, -⟩
    cases hds
  | infinite negative =>
    rintro ⟨ds, hds, hzeros⟩
    cases negative <;> cases hds
    exact absurd (hzeros 'i' List.mem_cons_self) (by decide)
  | finite negative quanta h =>
    by_cases hzero : quanta = 0
    · rw [text, if_pos hzero]
      rintro ⟨ds, hds, -⟩
      cases hds
    · obtain ⟨d, hm, hd⟩ := (Decimal.shortest .up quanta).exists_mantissa_positional
      rw [text, if_neg hzero, String.toList_ofList]
      refine not_isNegativeZero_of_mantissa hm fun _ hdigits => hzero ?_
      have hback := (hd false).trans
        (Decimal.toBinary64_of_reads h (Decimal.reads_shortest h) false)
      rw [Decimal.toBinary64_of_digits_eq_zero hdigits] at hback
      unfold zero ofQuanta at hback
      split at hback
      · exact (Binary64.finite.inj hback).2.symm
      · cases hback

namespace Value

/-! ## Numerals of values -/

variable {v : Value} {numeral : String}

theorem not_isNegativeZero_of_numeral? (h : v.numeral? = some numeral) :
    ¬ IsNegativeZero numeral.toList := by
  rcases exists_of_numeral? h with ⟨n, -, rfl⟩ | ⟨x, -, rfl⟩
  · exact not_isNegativeZero_toString n.toInt
  · exact x.not_isNegativeZero_text

/-- A numeral is read as its own number, unless it has more digits than the format keeps. -/
theorem numeral?_numeral (h : v.numeral? = some numeral) (hv : ∀ n, v ≠ .int n) :
    (text numeral).numeral? = some numeral := by
  rcases exists_of_numeral? h with ⟨n, hn, -⟩ | ⟨x, hx, rfl⟩
  · exact absurd hn (hv n)
  · obtain ⟨y, hy, htext⟩ := Numeral.exists_read?_text hx
    show (Numeral.read? x.text).map Binary64.text = some x.text
    rw [hy, Option.map_some, htext]

theorem numeral?_text_congr {s t : String} (h : Text.strip s.toList = Text.strip t.toList) :
    (text s).numeral? = (text t).numeral? := by
  show (Numeral.read? s).map Binary64.text = (Numeral.read? t).map Binary64.text
  unfold Numeral.read?
  rw [h]

/-! ## Lists -/

/-- There is a comma between two members. -/
theorem comma_mem_toText (v w : Value) (vs : List Value) :
    ',' ∈ (list (v :: w :: vs)).toText.toList := by
  rw [toText, memberTexts, memberTexts, String.intercalate_cons_cons, String.toList_append,
    String.toList_append]
  exact List.mem_append_left _ (List.mem_append_right _ List.mem_cons_self)

/-- No numeral has a comma, and no text is shown for a list without members. -/
theorem length_eq_one_of_isNumeric {members : List Value}
    (h : (list members).isNumeric = true) : members.length = 1 := by
  match members with
  | [] => exact absurd h (by decide +kernel)
  | [v] => rfl
  | v :: w :: vs =>
    obtain ⟨numeral, hnumeral⟩ := Option.isSome_iff_exists.mp h
    obtain ⟨x, hx, -⟩ := Option.map_eq_some_iff.mp hnumeral
    have hcomma := Text.mem_trimmed (p := Text.isBlank) (comma_mem_toText v w vs) rfl
    exact absurd (Numeral.isNumeralChar_of_read? hx _ hcomma) (by decide)

/-- The numeral of a value has one form, whatever the form of the value. -/
theorem canonicalNumeral (v : Value) : v.CanonicalNumeral where
  isPlain _ h := ⟨isPlain_of_numeral? h, not_isNegativeZero_of_numeral? h⟩
  reread _ h hv := numeral?_numeral h hv
  blanks s before after hv hbefore hafter := by
    rw [hv]
    apply numeral?_text_congr
    rw [String.toList_append, String.toList_append]
    exact Text.trimmed_append hbefore hafter
  single members hv h := by
    rw [hv] at h
    exact length_eq_one_of_isNumeric h

/-- A negative number that is too small for the format, in a list in a list. -/
example : (list [.list [.text "\t-4e-400 "]]).numeral? = some "0" := by decide +kernel

end Value

end FilterSelect
