import FilterSelect.Number.Decimal
import FilterSelect.Proofs.Number.Binary64
import Mathlib.Tactic.Ring
import Mathlib.Tactic.SplitIfs

/-!
# What rounding does

Rounding looks at the worth of a quotient only, keeps the numbers of the format, and stays finite
below the half-way point between the largest number and the power of two that would come next.

* `roundSignificant_mul_right`: a quotient and its multiples are rounded alike.
* `roundSignificant_of_dvd`: a number of the format is rounded to itself.
* `roundSignificant_mono`: rounding keeps the order of quotients.
* `roundSignificant_le_of_lt`, `le_roundSignificant_of_lt`: what is nearer to a number of the format
  than half a unit of the grid below it is rounded to that number.
* `representable_whole`: whole numbers of up to 53 bits are numbers of the format.
* `Binary64.isFinite_ofRatio_iff`: the quotients whose nearest number is finite.
* `Decimal.toBinary64_eq_ofRatio`: a decimal is rounded by its worth; the tests of its size agree.
* `Decimal.isFinite_toBinary64_iff`: the decimals whose nearest number is finite.
-/

namespace FilterSelect

/-! ## Quotients of the same worth -/

theorem roundHalfEven_mul_right (num den : Nat) {k : Nat} (hk : 0 < k) :
    roundHalfEven (num * k) (den * k) = roundHalfEven num den := by
  have hlt (a b : Nat) : a * k < b * k ↔ a < b := Nat.mul_lt_mul_right hk
  unfold roundHalfEven
  simp only [Nat.mul_div_mul_right _ _ hk, Nat.mul_mod_mul_right, ← Nat.mul_assoc, hlt]

theorem roundSignificant_mul_right (num den : Nat) {k : Nat} (hk : 0 < k) :
    roundSignificant (num * k) (den * k) = roundSignificant num den := by
  unfold roundSignificant
  simp only [Nat.mul_div_mul_right _ _ hk, Nat.mul_right_comm den k,
    roundHalfEven_mul_right _ _ hk]

/-- Quotients of the same worth are rounded alike. -/
theorem roundSignificant_congr {num den num' den' : Nat} (hden : 0 < den) (hden' : 0 < den')
    (h : num * den' = num' * den) : roundSignificant num den = roundSignificant num' den' := by
  rw [← roundSignificant_mul_right num den hden', h, Nat.mul_comm den den',
    roundSignificant_mul_right num' den' hden]

/-! ## Numbers of the format -/

theorem roundHalfEven_mul_self (q : Nat) {d : Nat} (hd : 0 < d) : roundHalfEven (q * d) d = q := by
  unfold roundHalfEven
  rw [Nat.mul_mod_left, Nat.mul_div_cancel _ hd, if_pos (by simpa using hd)]

/-- A whole number with no surplus bits set is rounded to itself. -/
theorem roundSignificant_of_dvd {q d : Nat} (hd : 0 < d) (h : 2 ^ surplusBits q ∣ q) :
    roundSignificant (q * d) d = q := by
  obtain ⟨m, hm⟩ := h
  unfold roundSignificant
  rw [Nat.mul_div_cancel _ hd]
  show roundHalfEven (q * d) (d * 2 ^ surplusBits q) * 2 ^ surplusBits q = q
  have hq : q * d = m * (d * 2 ^ surplusBits q) := by
    rw [Nat.mul_comm d, ← Nat.mul_assoc, Nat.mul_comm m, ← hm]
  rw [hq, roundHalfEven_mul_self m (Nat.mul_pos hd (Nat.two_pow_pos _)), Nat.mul_comm m, ← hm]

theorem roundSignificant_of_representable {quanta d : Nat} (h : Representable quanta)
    (hd : 0 < d) : roundSignificant (quanta * d) d = quanta :=
  roundSignificant_of_dvd hd (Nat.dvd_of_mod_eq_zero h.1)

/-! ## Bounds -/

theorem le_roundHalfEven (num den : Nat) : num / den ≤ roundHalfEven num den := by
  unfold roundHalfEven
  simp only []
  split
  · exact Nat.le_refl _
  · split <;> omega

/-- Rounding does not fall below a power of two. -/
theorem two_pow_le_roundSignificant {num den k : Nat} (h : 2 ^ k ≤ num / den) :
    2 ^ k ≤ roundSignificant num den := by
  have hne : num / den ≠ 0 := Nat.ne_of_gt (Nat.lt_of_lt_of_le (Nat.two_pow_pos k) h)
  have hk : k ≤ (num / den).log2 := (Nat.le_log2 hne).mpr h
  have hfloor : num / den / 2 ^ surplusBits (num / den) * 2 ^ surplusBits (num / den) ≤
      roundSignificant num den := by
    rw [Nat.div_div_eq_div_mul]
    exact Nat.mul_le_mul_right _ (le_roundHalfEven _ _)
  refine Nat.le_trans ?_ hfloor
  by_cases hs : (num / den).log2 ≤ 52
  · have hzero : surplusBits (num / den) = 0 := by unfold surplusBits; omega
    simpa [hzero] using h
  · have hlog : 52 + surplusBits (num / den) = (num / den).log2 := by unfold surplusBits; omega
    have hbits : 2 ^ 52 ≤ num / den / 2 ^ surplusBits (num / den) := by
      rw [Nat.le_div_iff_mul_le (Nat.two_pow_pos _), ← Nat.pow_add, hlog]
      exact Nat.log2_self_le hne
    calc 2 ^ k ≤ 2 ^ (num / den).log2 := Nat.pow_le_pow_right (by decide) hk
      _ = 2 ^ 52 * 2 ^ surplusBits (num / den) := by rw [← hlog, Nat.pow_add]
      _ ≤ _ := Nat.mul_le_mul_right _ hbits

theorem surplusBits_mono {m n : Nat} (h : m ≤ n) : surplusBits m ≤ surplusBits n :=
  surplusBits_le_iff.mpr (Nat.lt_of_le_of_lt h (surplusBits_le_iff.mp (Nat.le_refl _)))

theorem roundHalfEven_mono {num num' : Nat} (h : num ≤ num') (den : Nat) :
    roundHalfEven num den ≤ roundHalfEven num' den := by
  have hquot := Nat.div_le_div_right (c := den) h
  rcases Nat.lt_or_eq_of_le hquot with hlt | heq
  · have := roundHalfEven_le num den
    have := le_roundHalfEven num' den
    omega
  · -- The quotients are the same, so the larger number leaves the larger rest.
    have hnum := Nat.div_add_mod num den
    have hnum' := Nat.div_add_mod num' den
    rw [← heq] at hnum'
    unfold roundHalfEven
    rw [← heq]
    simp only []
    generalize num / den = q at hnum hnum' ⊢
    generalize num % den = r at hnum ⊢
    generalize num' % den = r' at hnum' ⊢
    have hrest : r ≤ r' := by omega
    split_ifs <;> omega

theorem roundSignificant_mono_left {num num' : Nat} (h : num ≤ num') (den : Nat) :
    roundSignificant num den ≤ roundSignificant num' den := by
  have hquot := Nat.div_le_div_right (c := den) h
  rcases Nat.lt_or_eq_of_le (surplusBits_mono hquot) with hlt | heq
  · -- A power of two lies between the two.
    obtain ⟨s, hs⟩ : ∃ s, surplusBits (num' / den) = s + 1 := ⟨_, (Nat.sub_add_cancel (by omega)).symm⟩
    have hlow : num / den < 2 ^ (53 + s) := surplusBits_le_iff.mp (by omega)
    have hhigh : 2 ^ (53 + s) ≤ num' / den :=
      Nat.le_of_not_lt fun h => absurd (surplusBits_le_iff.mpr h) (by omega)
    exact Nat.le_trans (roundSignificant_le (by omega) hlow) (two_pow_le_roundSignificant hhigh)
  · unfold roundSignificant
    rw [heq]
    exact Nat.mul_le_mul_right _ (roundHalfEven_mono h _)

/-- Rounding keeps the order of quotients. -/
theorem roundSignificant_mono {num den num' den' : Nat} (hden : 0 < den) (hden' : 0 < den')
    (h : num * den' ≤ num' * den) : roundSignificant num den ≤ roundSignificant num' den' := by
  rw [← roundSignificant_mul_right num den hden', ← roundSignificant_mul_right num' den' hden,
    Nat.mul_comm den' den]
  exact roundSignificant_mono_left h _

/-- Rounding reaches an even number from the half-way point below it on. -/
theorem le_roundHalfEven_iff (num : Nat) {den m : Nat} (hden : 0 < den) (hm : m % 2 = 0) :
    m ≤ roundHalfEven num den ↔ 2 * (m * den) ≤ 2 * num + den := by
  have hnum := Nat.div_add_mod' num den
  have hrest := Nat.mod_lt num hden
  unfold roundHalfEven
  simp only []
  generalize num / den = q at hnum ⊢
  generalize num % den = r at hnum hrest ⊢
  rcases Nat.lt_trichotomy (q + 1) m with hlt | heq | hgt
  · have hle : (q + 2) * den ≤ m * den := Nat.mul_le_mul_right _ hlt
    rw [Nat.add_mul] at hle
    have hup : ¬ 2 * (m * den) ≤ 2 * num + den := by omega
    simp only [hup, iff_false]
    split
    · omega
    · split <;> omega
  · have hmul : m * den = q * den + den := by rw [← heq, Nat.succ_mul]
    rw [hmul]
    split
    · omega
    · split <;> omega
  · have hle : m * den ≤ q * den := Nat.mul_le_mul_right _ (by omega)
    have hup : 2 * (m * den) ≤ 2 * num + den := by omega
    simp only [hup, iff_true]
    split
    · omega
    · split <;> omega

theorem roundSignificant_eq {num den s : Nat} (h : surplusBits (num / den) = s) :
    roundSignificant num den = roundHalfEven num (den * 2 ^ s) * 2 ^ s := by
  unfold roundSignificant
  rw [h]
  rfl

/-- Rounding reaches a power of two from the half-way point below it on. -/
theorem two_pow_le_roundSignificant_iff (num : Nat) {den : Nat} (hden : 0 < den) (j : Nat) :
    2 ^ (54 + j) ≤ roundSignificant num den ↔ 2 ^ (54 + j) * den ≤ num + 2 ^ j * den := by
  have hunit : 2 ^ (54 + j) * den = 2 ^ 54 * (2 ^ j * den) := by rw [Nat.pow_add, Nat.mul_assoc]
  rcases Nat.lt_trichotomy (num / den).log2 (53 + j) with hlt | heq | hgt
  · have hpow : 2 ^ (54 + j) = 2 * 2 ^ (53 + j) := by rw [← Nat.pow_succ']; congr 1; omega
    have hquot : num / den < 2 ^ (53 + j) := Nat.lt_of_lt_of_le Nat.lt_log2_self
      (Nat.pow_le_pow_right (by decide) hlt)
    have hnum : num < 2 ^ (53 + j) * den := (Nat.div_lt_iff_lt_mul hden).mp hquot
    have hj : 2 ^ (53 + j) * den = 2 ^ 53 * (2 ^ j * den) := by rw [Nat.pow_add, Nat.mul_assoc]
    have hround := roundSignificant_le (by omega) hquot
    have hpos := Nat.two_pow_pos (53 + j)
    constructor <;> intro h <;> omega
  · -- The surplus is known, and with it the unit that the significand counts.
    have hs : surplusBits (num / den) = j + 1 := by unfold surplusBits; omega
    have hpow : 2 ^ (54 + j) = 2 ^ 53 * 2 ^ (j + 1) := by rw [← Nat.pow_add]; congr 1; omega
    have hgrid : den * 2 ^ (j + 1) = 2 * (2 ^ j * den) := by rw [Nat.pow_succ]; ring
    have hiff := le_roundHalfEven_iff num (m := 2 ^ 53)
      (Nat.mul_pos hden (Nat.two_pow_pos (j + 1))) (by decide)
    rw [roundSignificant_eq hs, hunit, hpow, Nat.mul_le_mul_right_iff (Nat.two_pow_pos _), hiff, hgrid]
    omega
  · have hquot : 2 ^ (54 + j) ≤ num / den := by
      have hne : num / den ≠ 0 := by
        intro h0
        rw [h0, Nat.log2_zero] at hgt
        omega
      exact (Nat.le_log2 hne).mp (by omega)
    have hnum := (Nat.le_div_iff_mul_le hden).mp hquot
    have hround := two_pow_le_roundSignificant hquot
    constructor <;> intro _ <;> omega

/-! ## Near a number of the format -/

theorem roundHalfEven_le_of_lt {num den m : Nat} (h : 2 * num < 2 * (m * den) + den) :
    roundHalfEven num den ≤ m := by
  have hnum := Nat.div_add_mod' num den
  unfold roundHalfEven
  simp only []
  generalize num / den = q at hnum ⊢
  generalize num % den = r at hnum ⊢
  rcases Nat.lt_trichotomy q m with hlt | rfl | hgt
  · split_ifs <;> omega
  · split_ifs <;> omega
  · have hle := Nat.mul_le_mul_right den (Nat.succ_le_of_lt hgt)
    rw [Nat.succ_mul] at hle
    omega

theorem le_roundHalfEven_of_lt {num den m : Nat} (hden : 0 < den)
    (h : 2 * (m * den) < 2 * num + den) : m ≤ roundHalfEven num den := by
  have hnum := Nat.div_add_mod' num den
  have hrest := Nat.mod_lt num hden
  unfold roundHalfEven
  simp only []
  generalize num / den = q at hnum ⊢
  generalize num % den = r at hnum hrest ⊢
  rcases Nat.lt_trichotomy (q + 1) m with hlt | rfl | hgt
  · have hle := Nat.mul_le_mul_right den (Nat.succ_le_of_lt hlt)
    rw [Nat.succ_mul, Nat.succ_mul] at hle
    omega
  · rw [Nat.add_mul, Nat.one_mul] at h
    split_ifs <;> omega
  · split_ifs <;> omega

/-- The surplus bits are those of a number when they are no more, and its power of two is reached. -/
theorem surplusBits_eq_of {n s : Nat} (hle : n < 2 ^ (53 + s))
    (hge : ∀ k, s = k + 1 → 2 ^ (53 + k) ≤ n) : surplusBits n = s := by
  refine Nat.le_antisymm (surplusBits_le_iff.mpr hle) ?_
  cases s with
  | zero => exact Nat.zero_le _
  | succ k => exact Nat.le_of_not_lt fun h =>
      Nat.not_lt.mpr (hge k rfl) (surplusBits_le_iff.mp (Nat.le_of_lt_succ h))

/-- Above the power of two where a grid begins stands the next number of that grid. -/
theorem two_pow_add_le_of_surplusBits {q k : Nat} (hk : surplusBits (q - 1) = k + 1)
    (hdvd : 2 ^ (k + 1) ∣ q) : 2 ^ (53 + k) + 2 ^ (k + 1) ≤ q := by
  have hgt : 2 ^ (53 + k) < q := by
    have hge : ¬ q - 1 < 2 ^ (53 + k) := fun hlt =>
      absurd (surplusBits_le_iff.mpr hlt) (by omega)
    have := Nat.two_pow_pos (53 + k)
    omega
  obtain ⟨c, rfl⟩ := hdvd
  have hpow : 2 ^ (53 + k) = 2 ^ (k + 1) * 2 ^ 52 := by rw [← Nat.pow_add]; congr 1; omega
  rw [hpow] at hgt ⊢
  rw [← Nat.mul_succ]
  exact Nat.mul_le_mul_left _ (Nat.lt_of_mul_lt_mul_left hgt)

/-- Rounding does not exceed a number of the format, up to half a unit of the grid below it. That
grid is no coarser than the one above. -/
theorem roundSignificant_le_of_lt {q num den : Nat} (hq : 2 ^ surplusBits q ∣ q) (hden : 0 < den)
    (h : 2 * num < 2 * (q * den) + 2 ^ surplusBits (q - 1) * den) :
    roundSignificant num den ≤ q := by
  rcases Nat.le_total num (q * den) with hle | hge
  · exact roundSignificant_of_dvd hden hq ▸ roundSignificant_mono_left hle den
  · have hgrid : 2 ^ surplusBits (q - 1) * den ≤ 2 ^ surplusBits q * den :=
      Nat.mul_le_mul_right _ (Nat.pow_le_pow_right (by decide) (surplusBits_mono (Nat.sub_le ..)))
    have hmono : surplusBits q ≤ surplusBits (num / den) :=
      surplusBits_mono ((Nat.le_div_iff_mul_le hden).mpr hge)
    have hlt : q < 2 ^ (53 + surplusBits q) := surplusBits_le_iff.mp (Nat.le_refl _)
    generalize surplusBits q = s at hq hgrid hmono hlt
    obtain ⟨c, rfl⟩ := hq
    have hc : (c + 1) * 2 ^ s ≤ 2 ^ (53 + s) := by
      rw [Nat.pow_add, Nat.mul_comm (2 ^ s)] at *
      exact Nat.mul_le_mul_right _ (Nat.lt_of_mul_lt_mul_right hlt)
    have hsurplus : surplusBits (num / den) = s := by
      refine Nat.le_antisymm (surplusBits_le_iff.mpr ?_) hmono
      refine Nat.lt_of_lt_of_le ((Nat.div_lt_iff_lt_mul hden).mpr ?_) hc
      rw [Nat.add_mul, Nat.one_mul, Nat.add_mul, Nat.mul_comm c]
      omega
    rw [roundSignificant_eq hsurplus, Nat.mul_comm (2 ^ s)]
    refine Nat.mul_le_mul_right _ (roundHalfEven_le_of_lt ?_)
    have hunit : c * (den * 2 ^ s) = 2 ^ s * c * den := by ring
    rw [hunit, Nat.mul_comm den]
    omega

/-- Rounding does not fall below a number of the format, up to half a unit of the grid below it. -/
theorem le_roundSignificant_of_lt {q num den : Nat} (hq : 2 ^ surplusBits q ∣ q) (hden : 0 < den)
    (h : 2 * (q * den) < 2 * num + 2 ^ surplusBits (q - 1) * den) :
    q ≤ roundSignificant num den := by
  rcases Nat.lt_or_ge num (q * den) with hlt | hge
  · have hdvd : 2 ^ surplusBits (q - 1) ∣ q :=
      Nat.dvd_trans (Nat.pow_dvd_pow 2 (surplusBits_mono (Nat.sub_le ..))) hq
    have hbelow : num / den < q := (Nat.div_lt_iff_lt_mul hden).mpr hlt
    have hsurplus : surplusBits (num / den) = surplusBits (q - 1) := by
      refine surplusBits_eq_of ?_ fun k hk => ?_
      · have hlt : q - 1 < 2 ^ (53 + surplusBits (q - 1)) := surplusBits_le_iff.mp (Nat.le_refl _)
        omega
      · rw [hk] at hdvd h
        have hnext := two_pow_add_le_of_surplusBits hk hdvd
        rw [Nat.le_div_iff_mul_le hden]
        have := Nat.mul_le_mul_right den hnext
        rw [Nat.add_mul] at this
        omega
    rw [roundSignificant_eq hsurplus]
    generalize surplusBits (q - 1) = t at h hdvd
    obtain ⟨c, rfl⟩ := hdvd
    rw [Nat.mul_comm (2 ^ t)]
    refine Nat.mul_le_mul_right _ (le_roundHalfEven_of_lt
      (Nat.mul_pos hden (Nat.two_pow_pos t)) ?_)
    have hunit : c * (den * 2 ^ t) = 2 ^ t * c * den := by ring
    rw [hunit, Nat.mul_comm den]
    exact h
  · exact roundSignificant_of_dvd hden hq ▸ roundSignificant_mono_left hge den

/-! ## Whole numbers up to 53 bits -/

theorem quantaOfOne_pos : 0 < quantaOfOne := by
  unfold quantaOfOne
  generalize quantumBits = b
  exact Nat.two_pow_pos b

/-- Whole numbers of up to 53 bits are numbers of the format. -/
theorem representable_whole {n : Nat} (hn : n ≤ 2 ^ 53) : Representable (n * quantaOfOne) := by
  unfold Representable quantaOfOne quantaLimit
  generalize quantumBits = b
  refine ⟨mul_two_pow_mod_surplus hn b, ?_⟩
  have hlt {m : Nat} (hm : 53 < m) : n * 2 ^ b < 2 ^ (m + b) := by
    rw [Nat.pow_add]
    apply Nat.mul_lt_mul_of_pos_right _ (Nat.two_pow_pos b)
    exact Nat.lt_of_le_of_lt hn (Nat.pow_lt_pow_right (by decide) hm)
  exact hlt (by omega)

/-- An even whole number that is read as one of up to 53 bits is that number: the even numbers of
54 bits are numbers of the format themselves. -/
theorem eq_of_roundSignificant {n k : Nat} (hn : n ≤ 2 ^ 53) (hk : k % 2 = 0)
    (h : roundSignificant (k * quantaOfOne) 1 = n * quantaOfOne) : k = n := by
  unfold quantaOfOne at h
  simp only [Nat.pow_eq] at h
  generalize quantumBits = b at h
  rcases Nat.lt_or_ge k (2 ^ 54) with hlt | hge
  · have hself : roundSignificant (k * 2 ^ b) 1 = k * 2 ^ b := by
      have hk' : k * 2 ^ b = k / 2 * 2 ^ (b + 1) := by
        rw [Nat.pow_succ', ← Nat.mul_assoc, Nat.div_mul_cancel (Nat.dvd_of_mod_eq_zero hk)]
      have hdvd : 2 ^ surplusBits (k * 2 ^ b) ∣ k * 2 ^ b := by
        rw [hk']
        exact Nat.dvd_of_mod_eq_zero (mul_two_pow_mod_surplus (by omega) (b + 1))
      simpa using roundSignificant_of_dvd Nat.one_pos hdvd
    exact Nat.eq_of_mul_eq_mul_right (Nat.two_pow_pos b) (hself.symm.trans h)
  · have hround : 2 ^ (54 + b) ≤ roundSignificant (k * 2 ^ b) 1 := by
      apply two_pow_le_roundSignificant
      rw [Nat.div_one, Nat.pow_add]
      exact Nat.mul_le_mul_right _ hge
    have hle : n * 2 ^ b ≤ 2 ^ 53 * 2 ^ b := Nat.mul_le_mul_right _ hn
    have hpow : 2 ^ (54 + b) = 2 ^ 54 * 2 ^ b := Nat.pow_add ..
    have hpos := Nat.two_pow_pos b
    rw [h, hpow] at hround
    omega

/-! ## Infinity -/

namespace Binary64

/-- Where infinity begins: half-way between the largest number, with 53 bits set below 2¹⁰²⁴, and
2¹⁰²⁴ itself. -/
def overflow : Nat := Nat.pow 2 1024 - Nat.pow 2 970

theorem overflow_le {k : Nat} (hk : 1024 ≤ k) : overflow ≤ 2 ^ k := by
  unfold overflow
  generalize 1024 = m at hk ⊢
  exact Nat.le_trans (Nat.sub_le ..) (Nat.pow_le_pow_right (by decide) hk)

theorem two_pow_le_overflow : 2 ^ 64 ≤ overflow := by decide +kernel

theorem isFinite_ofQuanta_iff {negative : Bool} {quanta : Nat} :
    (ofQuanta negative quanta).isFinite = true ↔ Representable quanta := by
  refine ⟨fun h => ?_, isFinite_ofQuanta⟩
  unfold ofQuanta at h
  split at h
  · assumption
  · cases h

theorem isFinite_ofRatio_iff {negative : Bool} {num den : Nat} (hden : 0 < den) :
    (ofRatio negative num den).isFinite = true ↔ num < overflow * den := by
  have hround : Representable (roundSignificant (num * quantaOfOne) den) ↔
      ¬ quantaLimit ≤ roundSignificant (num * quantaOfOne) den :=
    ⟨fun h => Nat.not_le_of_lt h.2, fun h => representable_roundSignificant (Nat.lt_of_not_le h)⟩
  unfold ofRatio
  rw [isFinite_ofQuanta_iff, hround]
  unfold quantaOfOne quantaLimit overflow
  generalize quantumBits = b
  have hb := two_pow_le_roundSignificant_iff (num * 2 ^ b) hden (970 + b)
  rw [show 54 + (970 + b) = 1024 + b by omega] at hb
  simp only [Nat.pow_eq]
  generalize 1024 = m at hb ⊢
  generalize 970 = j at hb ⊢
  have hscale (k : Nat) : 2 ^ (k + b) * den = 2 ^ k * den * 2 ^ b := by
    rw [Nat.pow_add, Nat.mul_right_comm]
  rw [hb, hscale, hscale, ← Nat.add_mul, Nat.mul_le_mul_right_iff (Nat.two_pow_pos b), Nat.not_le,
    Nat.sub_mul]
  exact Nat.lt_sub_iff_add_lt.symm

theorem eq_infinite_of_not_isFinite {negative : Bool} {num den : Nat}
    (h : ¬ (ofRatio negative num den).isFinite = true) :
    ofRatio negative num den = .infinite negative := by
  unfold ofRatio ofQuanta at h ⊢
  split at h
  · exact absurd rfl h
  · rw [dif_neg (by assumption)]

end Binary64

/-! ## Decimals -/

namespace Decimal

theorem ratio_den_pos (d : Decimal) : 0 < d.ratio.2 := by
  unfold ratio
  split
  · exact Nat.one_pos
  · exact Nat.pow_pos (by decide)

/-- Powers of ten lie above the powers of eight, which are powers of two. -/
theorem two_pow_le_ten_pow (k : Nat) : 2 ^ (3 * k) ≤ 10 ^ k := by
  rw [Nat.pow_mul]
  exact Nat.pow_le_pow_left (by decide) k

theorem ofRatio_of_isHuge {negative : Bool} {d : Decimal} (h : d.isHuge = true) :
    .ofRatio negative d.ratio.1 d.ratio.2 = Binary64.infinite negative := by
  apply Binary64.eq_infinite_of_not_isFinite
  rw [Binary64.isFinite_ofRatio_iff d.ratio_den_pos]
  simp only [isHuge, decide_not, Bool.and_eq_true, Bool.not_eq_true', decide_eq_false_iff_not,
    decide_eq_true_eq] at h
  obtain ⟨hdigits, hexp⟩ := h
  obtain ⟨digits, exponent⟩ := d
  obtain ⟨e, rfl⟩ := Int.eq_ofNat_of_zero_le (Int.le_of_lt (Int.lt_trans (by decide) hexp))
  have he : 400 < e := Int.ofNat_lt.mp hexp
  show ¬ digits * 10 ^ e < Binary64.overflow * 1
  rw [Nat.mul_one, Nat.not_lt]
  calc Binary64.overflow ≤ 2 ^ (3 * e) :=
        Binary64.overflow_le (by omega)
    _ ≤ 10 ^ e := two_pow_le_ten_pow e
    _ ≤ digits * 10 ^ e := Nat.le_mul_of_pos_left _ (Nat.pos_of_ne_zero hdigits)

theorem ofRatio_of_isTiny {negative : Bool} {d : Decimal} (h : d.isTiny = true) :
    .ofRatio negative d.ratio.1 d.ratio.2 = Binary64.zero negative := by
  -- Twice the quanta are below one, so nothing is left after rounding.
  have hzero (num : Nat) {den : Nat} (hlt : 2 * num < den) : roundSignificant num den = 0 := by
    unfold roundSignificant roundHalfEven
    have hdiv : num / den = 0 := Nat.div_eq_of_lt (by omega)
    have hs : surplusBits 0 = 0 := rfl
    simp [hdiv, hs, Nat.mod_eq_of_lt (show num < den by omega), hlt]
  unfold Binary64.ofRatio Binary64.zero
  congr 1
  apply hzero
  obtain ⟨digits, exponent⟩ := d
  by_cases hdigits : digits = 0
  · subst hdigits
    have hden := ratio_den_pos ⟨0, exponent⟩
    have hnum : (ratio ⟨0, exponent⟩).1 = 0 := by cases exponent <;> simp [ratio]
    simpa [hnum] using hden
  · have hexp : (digits.log2 + quantumBits + 2 : Int) < -3 * exponent := by
      simpa [isTiny, hdigits] using h
    cases exponent with
    | ofNat e =>
      simp only [Int.ofNat_eq_natCast] at hexp
      omega
    | negSucc e =>
      have hlog : digits.log2 + quantumBits + 2 ≤ 3 * (e + 1) := by
        rw [Int.negSucc_eq] at hexp
        omega
      unfold quantaOfOne
      generalize quantumBits = b at hlog ⊢
      show 2 * (digits * 2 ^ b) < 10 ^ (e + 1)
      calc 2 * (digits * 2 ^ b)
          < 2 * (2 ^ (digits.log2 + 1) * 2 ^ b) :=
            Nat.mul_lt_mul_of_pos_left
              (Nat.mul_lt_mul_of_pos_right Nat.lt_log2_self (Nat.two_pow_pos _)) (by decide)
        _ = 2 ^ (digits.log2 + b + 2) := by
            rw [← Nat.pow_add, ← Nat.pow_succ']
            congr 1
            omega
        _ ≤ 2 ^ (3 * (e + 1)) := Nat.pow_le_pow_right (by decide) hlog
        _ ≤ 10 ^ (e + 1) := two_pow_le_ten_pow _

/-- A decimal is rounded by its worth: the tests of its size only save work. -/
theorem toBinary64_eq_ofRatio (negative : Bool) (d : Decimal) :
    d.toBinary64 negative = .ofRatio negative d.ratio.1 d.ratio.2 := by
  unfold toBinary64
  split
  · exact (ofRatio_of_isHuge ‹_›).symm
  · split
    · exact (ofRatio_of_isTiny ‹_›).symm
    · rfl

theorem isFinite_toBinary64_iff {negative : Bool} {d : Decimal} :
    (d.toBinary64 negative).isFinite = true ↔ d.ratio.1 < Binary64.overflow * d.ratio.2 := by
  rw [toBinary64_eq_ofRatio, Binary64.isFinite_ofRatio_iff d.ratio_den_pos]

/-- Decimals of the same worth are read as the same number. -/
theorem toBinary64_congr {negative : Bool} {d d' : Decimal}
    (h : d.ratio.1 * d'.ratio.2 = d'.ratio.1 * d.ratio.2) :
    d.toBinary64 negative = d'.toBinary64 negative := by
  rw [toBinary64_eq_ofRatio, toBinary64_eq_ofRatio]
  have hworth : d.ratio.1 * quantaOfOne * d'.ratio.2 = d'.ratio.1 * quantaOfOne * d.ratio.2 := by
    rw [Nat.mul_right_comm, h, Nat.mul_right_comm]
  unfold Binary64.ofRatio
  rw [roundSignificant_congr d.ratio_den_pos d'.ratio_den_pos hworth]

end Decimal

end FilterSelect
