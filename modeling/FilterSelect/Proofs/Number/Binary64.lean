import FilterSelect.Number.Binary64
import Mathlib.Algebra.Group.Nat.Defs

/-!
# Rounding stays in the format

A rounded quotient has at most 53 significant bits, so it is a number of the format unless it is
too large.

* `representable_roundSignificant`: a rounded quotient below the limit is the worth of a number.
* `roundSignificant_le`: rounding does not cross a power of two.
* `isFinite_ofNat`: the number nearest to a 64-bit word is finite.
-/

namespace FilterSelect

theorem roundHalfEven_le (num den : Nat) : roundHalfEven num den ≤ num / den + 1 := by
  unfold roundHalfEven
  simp only []
  split
  · omega
  · split <;> omega

/-- A number has at most so many surplus bits when it is below a power of two. -/
theorem surplusBits_le_iff {n s : Nat} : surplusBits n ≤ s ↔ n < 2 ^ (53 + s) := by
  unfold surplusBits
  by_cases hn : n = 0
  · subst hn
    exact iff_of_true (by simp) (Nat.two_pow_pos _)
  · have := Nat.log2_lt hn (k := 53 + s)
    omega

/-- The quotient fits 53 bits once its surplus bits are cut off. -/
theorem div_surplusBits_lt (n : Nat) : n / 2 ^ surplusBits n < 2 ^ 53 := by
  rw [Nat.div_lt_iff_lt_mul (Nat.two_pow_pos _), ← Nat.pow_add]
  exact surplusBits_le_iff.mp (Nat.le_refl _)

/-- The significand of a rounded quotient; it reaches `2 ^ 53` when rounding carries. -/
theorem roundHalfEven_surplus_le (num den : Nat) :
    roundHalfEven num (den * 2 ^ surplusBits (num / den)) ≤ 2 ^ 53 := by
  have h := roundHalfEven_le num (den * 2 ^ surplusBits (num / den))
  rw [← Nat.div_div_eq_div_mul] at h
  have := div_surplusBits_lt (num / den)
  omega

/-- A significand of at most `2 ^ 53` leaves no surplus bits set. -/
theorem mul_two_pow_mod_surplus {m : Nat} (hm : m ≤ 2 ^ 53) (s : Nat) :
    m * 2 ^ s % 2 ^ surplusBits (m * 2 ^ s) = 0 := by
  apply Nat.mod_eq_zero_of_dvd
  by_cases h0 : m = 0
  · subst h0
    simp
  have hne : m * 2 ^ s ≠ 0 := Nat.mul_ne_zero h0 (Nat.ne_of_gt (Nat.two_pow_pos s))
  rcases Nat.lt_or_eq_of_le hm with hlt | heq
  · have hlog : (m * 2 ^ s).log2 < 53 + s := by
      rw [Nat.log2_lt hne, Nat.pow_add]
      exact Nat.mul_lt_mul_of_pos_right hlt (Nat.two_pow_pos s)
    refine Nat.dvd_trans (Nat.pow_dvd_pow 2 ?_) (Nat.dvd_mul_left (2 ^ s) m)
    unfold surplusBits
    omega
  · rw [heq, ← Nat.pow_add]
    apply Nat.pow_dvd_pow
    unfold surplusBits
    rw [Nat.log2_two_pow]
    omega

theorem representable_roundSignificant {num den : Nat}
    (h : roundSignificant num den < quantaLimit) : Representable (roundSignificant num den) :=
  ⟨mul_two_pow_mod_surplus (roundHalfEven_surplus_le num den) _, h⟩

/-- Rounding does not cross a power of two that has 53 bits below it. -/
theorem roundSignificant_le {num den k : Nat} (hk : 53 ≤ k) (h : num / den < 2 ^ k) :
    roundSignificant num den ≤ 2 ^ k := by
  have hs : 53 + surplusBits (num / den) ≤ k := by
    have hle : surplusBits (num / den) ≤ k - 53 :=
      surplusBits_le_iff.mpr (by rwa [Nat.add_sub_of_le hk])
    omega
  calc roundSignificant num den
      ≤ 2 ^ 53 * 2 ^ surplusBits (num / den) :=
        Nat.mul_le_mul_right _ (roundHalfEven_surplus_le num den)
    _ = 2 ^ (53 + surplusBits (num / den)) := (Nat.pow_add ..).symm
    _ ≤ 2 ^ k := Nat.pow_le_pow_right (by decide) hs

namespace Binary64

theorem isFinite_ofQuanta {negative : Bool} {quanta : Nat} (h : Representable quanta) :
    (ofQuanta negative quanta).isFinite = true := by
  unfold ofQuanta
  rw [dif_pos h]
  rfl

theorem isFinite_ofNat {n : Nat} (h : n < 2 ^ 64) : (ofNat n).isFinite = true := by
  apply isFinite_ofQuanta
  apply representable_roundSignificant
  unfold quantaOfOne quantaLimit
  generalize quantumBits = b
  have hq : n * 2 ^ b / 1 < 2 ^ (64 + b) := by
    rw [Nat.div_one, Nat.pow_add]
    exact Nat.mul_lt_mul_of_pos_right h (Nat.two_pow_pos b)
  have hle := roundSignificant_le (by omega) hq
  exact Nat.lt_of_le_of_lt hle (Nat.pow_lt_pow_right (by decide) (by omega))

end Binary64

end FilterSelect
