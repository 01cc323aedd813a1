import FilterSelect.Proofs.Number.Shortest
import Mathlib.Algebra.Order.Field.Power
import Mathlib.Algebra.Order.Field.Rat
import Mathlib.Data.Nat.Cast.Order.Field
import Mathlib.Tactic.Linarith
import Mathlib.Tactic.NormNum
import Mathlib.Tactic.Positivity

/-!
# The shortest decimal has the fewest digits

Rounding keeps the order of decimals. So if a decimal reads back as a number, then on each grid that
it lies on one of the number's two neighbours reads back, too, and is as near at least. The grids
are tried from the coarsest one on, and the one of 17 digits is finer than the format everywhere.

* `Decimal.worth`, `Decimal.distance`: what a decimal is worth, and how far it is from a number.
* `Decimal.rounded_mono`: rounding keeps the order of decimals.
* `Decimal.exists_neighbours`: the neighbours of a number on a grid.
* `Decimal.magnitude_spec`: the powers of ten around a number.
* `Decimal.isSome_neighbour?_seventeen`: 17 digits suffice.
* `Decimal.length_digitText_shortest_le`: no decimal that reads back has fewer digits than the
  shortest one.
* `Decimal.distance_shortest_le`: none that has as few digits is nearer.
-/

namespace FilterSelect

namespace Decimal

/-! ## Worth -/

/-- What the decimal is worth. -/
def worth (d : Decimal) : ℚ := d.digits * (10 : ℚ) ^ d.exponent

/-- What so many quanta are worth. -/
def worthOfQuanta (quanta : Nat) : ℚ := quanta / quantaOfOne

theorem worth_eq_ratio (d : Decimal) : d.worth = d.ratio.1 / d.ratio.2 := by
  obtain ⟨digits, exponent⟩ := d
  cases exponent with
  | ofNat e => simp [worth, ratio]
  | negSucc e => simp [worth, ratio, zpow_negSucc, div_eq_mul_inv]

/-- The quanta that the decimal is rounded to. -/
def rounded (d : Decimal) : Nat := roundSignificant (d.ratio.1 * quantaOfOne) d.ratio.2

theorem cast_quantaOfOne_pos : (0 : ℚ) < quantaOfOne := Nat.cast_pos.mpr quantaOfOne_pos

theorem cast_den_pos (d : Decimal) : (0 : ℚ) < d.ratio.2 := Nat.cast_pos.mpr d.ratio_den_pos

theorem worth_mul_den (d : Decimal) : d.worth * d.ratio.2 = d.ratio.1 := by
  rw [worth_eq_ratio, div_mul_cancel₀ _ d.cast_den_pos.ne']

/-- Rounding keeps the order of decimals. -/
theorem rounded_mono {d d' : Decimal} (h : d.worth ≤ d'.worth) : d.rounded ≤ d'.rounded := by
  rw [worth_eq_ratio, worth_eq_ratio, div_le_div_iff₀ d.cast_den_pos d'.cast_den_pos] at h
  refine roundSignificant_mono d.ratio_den_pos d'.ratio_den_pos ?_
  rw [Nat.mul_right_comm, Nat.mul_right_comm d'.ratio.1]
  exact Nat.mul_le_mul_right _ (by exact_mod_cast h)

/-- All the digits of a number are worth what the number is. -/
theorem worth_exact (quanta : Nat) : (exact quanta).worth = worthOfQuanta quanta := by
  unfold worth exact worthOfQuanta quantaOfOne
  generalize quantumBits = b
  show ((quanta * 5 ^ b : Nat) : ℚ) * 10 ^ (-(b : Int)) = quanta / (2 ^ b : Nat)
  have hten : (10 : ℚ) ^ b = 2 ^ b * 5 ^ b := by
    rw [← mul_pow]
    norm_num
  have hfive : (5 : ℚ) ^ b ≠ 0 := by positivity
  rw [zpow_neg, zpow_natCast, ← div_eq_mul_inv, hten]
  push_cast
  exact mul_div_mul_right _ _ hfive

/-- How far the decimal is from a number. -/
def distance (quanta : Nat) (d : Decimal) : ℚ := |d.worth - worthOfQuanta quanta|

/-- The second decimal lies between the number and the first one. -/
def Between (quanta : Nat) (d d' : Decimal) : Prop :=
  d.worth ≤ d'.worth ∧ d'.worth ≤ worthOfQuanta quanta ∨
    worthOfQuanta quanta ≤ d'.worth ∧ d'.worth ≤ d.worth

theorem between_of_worth_eq (quanta : Nat) {d d' : Decimal} (h : d'.worth = d.worth) :
    Between quanta d d' := by
  unfold Between
  rw [h]
  exact (le_total _ _).imp (⟨le_rfl, ·⟩) (⟨·, le_rfl⟩)

theorem Between.distance_le {quanta : Nat} {d d' : Decimal} (h : Between quanta d d') :
    distance quanta d' ≤ distance quanta d := by
  unfold distance
  rcases h with ⟨h, h'⟩ | ⟨h, h'⟩
  · rw [abs_of_nonpos (by linarith), abs_of_nonpos (by linarith)]
    linarith
  · rw [abs_of_nonneg (by linarith), abs_of_nonneg (by linarith)]
    linarith

section

variable {quanta : Nat} (hq : Representable quanta) {d : Decimal}
include hq

theorem reads_iff_rounded : d.reads quanta = true ↔ d.rounded = quanta := reads_iff hq

theorem rounded_exact : (exact quanta).rounded = quanta := (reads_iff_rounded hq).mp (reads_exact hq)

theorem rounded_le (h : d.worth ≤ worthOfQuanta quanta) : d.rounded ≤ quanta :=
  (rounded_mono (h.trans_eq (worth_exact quanta).symm)).trans_eq (rounded_exact hq)

theorem le_rounded (h : worthOfQuanta quanta ≤ d.worth) : quanta ≤ d.rounded :=
  (rounded_exact hq).symm.trans_le (rounded_mono ((worth_exact quanta).trans_le h))

/-- What lies between a number and a decimal that reads back reads back, too. -/
theorem reads_between {d' : Decimal} (hd : d.reads quanta = true) (h : Between quanta d d') :
    d'.reads quanta = true := by
  have heq := (reads_iff_rounded hq).mp hd
  refine (reads_iff_rounded hq).mpr (Nat.le_antisymm ?_ ?_)
  · rcases h with ⟨-, h⟩ | ⟨-, h⟩
    · exact rounded_le hq h
    · exact heq ▸ rounded_mono h
  · rcases h with ⟨h, -⟩ | ⟨h, -⟩
    · exact heq ▸ rounded_mono h
    · exact le_rounded hq h

end

/-! ## Neighbours -/

/-- So many units of a power of ten, and one more, are the neighbours of a number on that grid. If
one of them reads back, then one is found that is as near at least. -/
structure Neighbours (tie : Tie) (quanta : Nat) (e : Int) (m : Nat) : Prop where
  below : worth ⟨m, e⟩ ≤ worthOfQuanta quanta
  above : worthOfQuanta quanta < worth ⟨m + 1, e⟩
  eq_of_found : ∀ d, neighbour? tie quanta e = some d → d = ⟨m, e⟩ ∨ d = ⟨m + 1, e⟩
  exists_found : ∀ d, d = ⟨m, e⟩ ∨ d = ⟨m + 1, e⟩ → d.reads quanta = true →
    ∃ found, neighbour? tie quanta e = some found ∧ distance quanta found ≤ distance quanta d

/-- The nearer neighbour comes first. -/
theorem belowFirst_spec (tie : Tie) (num den : Nat) :
    if belowFirst tie num den then 2 * (num % den) ≤ den else den ≤ 2 * (num % den) := by
  unfold belowFirst
  by_cases htie : 2 * (num % den) = den
  · simp [htie]
  · rw [if_neg htie]
    split
    · rename_i hlt
      exact (of_decide_eq_true hlt).le
    · rename_i hge
      exact Nat.le_of_not_lt fun hlt => hge (decide_eq_true hlt)

/-- A number as a quotient of units, on the grid of its unit. -/
theorem neighbour?_eq (tie : Tie) (quanta : Nat) (e : Int) : ∃ num den : Nat, 0 < den ∧
    worthOfQuanta quanta = (num : ℚ) / den * 10 ^ e ∧ neighbour? tie quanta e =
      (if belowFirst tie num den then [⟨num / den, e⟩, ⟨num / den + 1, e⟩]
        else [⟨num / den + 1, e⟩, ⟨num / den, e⟩] : List Decimal).find? (reads quanta) := by
  cases e with
  | ofNat e =>
    refine ⟨quanta, quantaOfOne * 10 ^ e, Nat.mul_pos quantaOfOne_pos (by positivity), ?_, rfl⟩
    have hunit : (10 : ℚ) ^ e ≠ 0 := by positivity
    rw [worthOfQuanta, Int.ofNat_eq_natCast, zpow_natCast, Nat.cast_mul, Nat.cast_pow,
      Nat.cast_ofNat, ← div_div, div_mul_cancel₀ _ hunit]
  | negSucc e =>
    refine ⟨quanta * 10 ^ (e + 1), quantaOfOne, quantaOfOne_pos, ?_, rfl⟩
    have hunit : (10 : ℚ) ^ (e + 1) ≠ 0 := by positivity
    rw [worthOfQuanta, zpow_negSucc, Nat.cast_mul, Nat.cast_pow, Nat.cast_ofNat,
      ← div_eq_mul_inv, div_right_comm, mul_div_cancel_right₀ _ hunit]

section

variable {quanta num den : Nat} {e : Int} (hden : 0 < den)
  (hworth : worthOfQuanta quanta = (num : ℚ) / den * 10 ^ e)

include hden hworth

/-- The rest of the quotient tells how far the neighbours are from the number. -/
theorem worth_neighbours : ∃ part : ℚ, 0 ≤ part ∧ part < 1 ∧ part * den = (num % den : Nat) ∧
    worthOfQuanta quanta - worth ⟨num / den, e⟩ = part * 10 ^ e ∧
      worth ⟨num / den + 1, e⟩ - worthOfQuanta quanta = (1 - part) * 10 ^ e := by
  have hden' : (0 : ℚ) < den := Nat.cast_pos.mpr hden
  have hsplit : (num : ℚ) / den = (num / den : Nat) + (num % den : Nat) / den := by
    rw [div_eq_iff hden'.ne', add_mul, div_mul_cancel₀ _ hden'.ne']
    exact_mod_cast (Nat.div_add_mod' num den).symm
  refine ⟨(num % den : Nat) / den, by positivity, ?_, div_mul_cancel₀ _ hden'.ne', ?_, ?_⟩
  · rw [div_lt_one hden']
    exact_mod_cast Nat.mod_lt num hden
  · rw [hworth, hsplit, worth]
    ring
  · rw [hworth, hsplit, worth]
    push_cast
    ring

end

/-- Of two candidates the first one that reads back is found, and the nearer one is tried first. -/
theorem exists_find?_pair {quanta : Nat} {x y d : Decimal}
    (hxy : distance quanta x ≤ distance quanta y) (hd : d = x ∨ d = y)
    (hreads : d.reads quanta = true) :
    ∃ found, [x, y].find? (reads quanta) = some found ∧ distance quanta found ≤ distance quanta d := by
  cases hx : x.reads quanta with
  | true =>
    refine ⟨x, List.find?_cons_of_pos hx, ?_⟩
    rcases hd with rfl | rfl
    · exact le_rfl
    · exact hxy
  | false =>
    obtain rfl := hd.resolve_left fun h => Bool.false_ne_true (hx.symm.trans (h ▸ hreads))
    exact ⟨d, by simp [hx, hreads], le_rfl⟩

theorem exists_neighbours (tie : Tie) (quanta : Nat) (e : Int) :
    ∃ m, Neighbours tie quanta e m := by
  obtain ⟨num, den, hden, hworth, hfind⟩ := neighbour?_eq tie quanta e
  obtain ⟨part, hpos, hlt, hpart, hbelow, habove⟩ := worth_neighbours hden hworth
  have hunit : (0 : ℚ) < 10 ^ e := by positivity
  have hbelow' : 0 ≤ part * 10 ^ e := by positivity
  have habove' : 0 < (1 - part) * 10 ^ e := mul_pos (by linarith) hunit
  have hnearer : if belowFirst tie num den
      then distance quanta ⟨num / den, e⟩ ≤ distance quanta ⟨num / den + 1, e⟩
      else distance quanta ⟨num / den + 1, e⟩ ≤ distance quanta ⟨num / den, e⟩ := by
    have hspec := belowFirst_spec tie num den
    have hden' : (0 : ℚ) < den := Nat.cast_pos.mpr hden
    unfold distance
    rw [abs_sub_comm, abs_of_nonneg (hbelow ▸ hbelow'), abs_of_pos (habove ▸ habove'), hbelow,
      habove]
    split_ifs at hspec ⊢
    · have hspec : (2 * (num % den : Nat) : ℚ) ≤ den := by exact_mod_cast hspec
      have hhalf : 2 * part ≤ 1 := le_of_mul_le_mul_right (by linarith) hden'
      exact mul_le_mul_of_nonneg_right (by linarith) hunit.le
    · have hspec : (den : ℚ) ≤ 2 * (num % den : Nat) := by exact_mod_cast hspec
      have hhalf : 1 ≤ 2 * part := le_of_mul_le_mul_right (by linarith) hden'
      exact mul_le_mul_of_nonneg_right (by linarith) hunit.le
  refine ⟨num / den, by linarith, by linarith, fun d hd => ?_, fun d hd hreads => ?_⟩
  · rw [hfind] at hd
    have hmem := List.mem_of_find?_eq_some hd
    split_ifs at hmem
    · simpa using hmem
    · simpa [or_comm] using hmem
  · rw [hfind]
    split_ifs at hnearer ⊢
    · exact exists_find?_pair hnearer hd hreads
    · exact exists_find?_pair hnearer hd.symm hreads

/-- On the grid of a decimal that reads back, a neighbour does that is as near at least. -/
theorem exists_neighbour?_of_reads {quanta : Nat} (hq : Representable quanta) {d : Decimal}
    (hd : d.reads quanta = true) (tie : Tie) :
    ∃ found, neighbour? tie quanta d.exponent = some found ∧
      distance quanta found ≤ distance quanta d := by
  obtain ⟨digits, e⟩ := d
  obtain ⟨m, hm⟩ := exists_neighbours tie quanta e
  have hunit : (0 : ℚ) ≤ 10 ^ e := by positivity
  obtain ⟨d, hneighbour, hbetween⟩ : ∃ d : Decimal, (d = ⟨m, e⟩ ∨ d = ⟨m + 1, e⟩) ∧
      Between quanta ⟨digits, e⟩ d := by
    rcases Nat.lt_or_ge m digits with hlt | hge
    · exact ⟨_, .inr rfl, .inr ⟨hm.above.le,
        mul_le_mul_of_nonneg_right (Nat.cast_le.mpr hlt) hunit⟩⟩
    · exact ⟨_, .inl rfl, .inl ⟨mul_le_mul_of_nonneg_right (Nat.cast_le.mpr hge) hunit, hm.below⟩⟩
  obtain ⟨found, hfound, hdistance⟩ :=
    hm.exists_found d hneighbour (reads_between hq hd hbetween)
  exact ⟨found, hfound, hdistance.trans hbetween.distance_le⟩

/-! ## Powers of ten -/

theorem quantaOfOne_le_ten_pow {k : Nat} (hk : quantumBits ≤ 3 * k) : quantaOfOne ≤ 10 ^ k := by
  unfold quantaOfOne
  generalize quantumBits = b at hk ⊢
  exact Nat.le_trans (Nat.pow_le_pow_right (by decide) hk) (two_pow_le_ten_pow k)

/-- The digits of a number tell the powers of ten around it. -/
theorem digitText_bounds {n : Nat} (hn : 0 < n) :
    ∃ k, (digitText n).length = k + 1 ∧ 10 ^ k ≤ n ∧ n < 10 ^ (k + 1) := by
  obtain ⟨k, hk⟩ : ∃ k, (digitText n).length = k + 1 :=
    Nat.exists_eq_succ_of_ne_zero (List.length_pos_iff.mpr (areDigits_digitText n).1).ne'
  have hlength (j : Nat) (hj : 0 < j) : (digitText n).length ≤ j ↔ n < 10 ^ j :=
    Nat.length_toDigits_le_iff (by decide) hj
  refine ⟨k, hk, ?_, (hlength _ k.succ_pos).mp hk.le⟩
  rcases Nat.eq_zero_or_pos k with rfl | hpos
  · exact hn
  · exact Nat.le_of_not_lt fun hlt => by
      have := (hlength k hpos).mpr hlt
      omega

/-- The powers of ten next to a number. -/
theorem magnitude_spec {quanta : Nat} (hpos : 0 < quanta) :
    (10 : ℚ) ^ (magnitude quanta - 1) ≤ worthOfQuanta quanta ∧
      worthOfQuanta quanta < 10 ^ magnitude quanta := by
  obtain ⟨p, hp, hmagnitude⟩ : ∃ p : Nat, quantumBits ≤ 3 * p ∧ ∀ quanta, magnitude quanta =
      ((digitText (quanta * Nat.pow 10 p / quantaOfOne)).length : Int) - p :=
    ⟨_, by decide, fun _ => rfl⟩
  have hscaled : 0 < quanta * 10 ^ p / quantaOfOne := by
    refine Nat.div_pos ?_ quantaOfOne_pos
    exact Nat.le_trans (quantaOfOne_le_ten_pow hp) (Nat.le_mul_of_pos_left _ hpos)
  obtain ⟨k, hk, hlow, hhigh⟩ := digitText_bounds hscaled
  have hunit : (0 : ℚ) < 10 ^ p := by positivity
  have hscale (j : Nat) : (10 : ℚ) ^ ((j : Int) - p) * 10 ^ p = (10 ^ j : Nat) := by
    rw [← zpow_natCast, ← zpow_add₀ (by norm_num), Int.sub_add_cancel, zpow_natCast]
    push_cast
    rfl
  have hworth : worthOfQuanta quanta * 10 ^ p = (quanta * 10 ^ p : Nat) / (quantaOfOne : ℚ) := by
    rw [worthOfQuanta]
    push_cast
    ring
  rw [hmagnitude, show Nat.pow 10 p = 10 ^ p from rfl, hk]
  constructor
  · rw [show ((k + 1 : Nat) : Int) - p - 1 = k - p by omega]
    refine le_of_mul_le_mul_right ?_ hunit
    rw [hscale, hworth, le_div_iff₀ cast_quantaOfOne_pos]
    exact_mod_cast (Nat.le_div_iff_mul_le quantaOfOne_pos).mp hlow
  · refine lt_of_mul_lt_mul_right ?_ hunit.le
    rw [hscale, hworth, div_lt_iff₀ cast_quantaOfOne_pos]
    exact_mod_cast (Nat.div_lt_iff_lt_mul quantaOfOne_pos).mp hhigh

/-! ## Seventeen digits -/

section

variable {quanta : Nat} (hq : Representable quanta) {d : Decimal}
include hq

/-- A decimal that is rounded below a number is half a unit away. -/
theorem worth_le_of_rounded_lt (h : d.rounded < quanta) :
    2 * (d.worth * quantaOfOne) + 2 ^ surplusBits (quanta - 1) ≤ 2 * quanta := by
  have hfar := mt (le_roundSignificant_of_lt (Nat.dvd_of_mod_eq_zero hq.1) d.ratio_den_pos)
    (Nat.not_le.mpr h)
  have hfar : (2 * (d.ratio.1 * quantaOfOne) + 2 ^ surplusBits (quanta - 1) * d.ratio.2 : ℚ) ≤
      2 * (quanta * d.ratio.2) := by exact_mod_cast Nat.not_lt.mp hfar
  refine le_of_mul_le_mul_right ?_ d.cast_den_pos
  calc _ = (2 * (d.ratio.1 * quantaOfOne) + 2 ^ surplusBits (quanta - 1) * d.ratio.2 : ℚ) := by
        rw [← worth_mul_den]
        ring
    _ ≤ 2 * (quanta * d.ratio.2) := hfar
    _ = _ := by ring

/-- A decimal that is rounded above a number is half a unit away. -/
theorem le_worth_of_lt_rounded (h : quanta < d.rounded) :
    2 * quanta + 2 ^ surplusBits (quanta - 1) ≤ 2 * (d.worth * quantaOfOne) := by
  have hfar := mt (roundSignificant_le_of_lt (Nat.dvd_of_mod_eq_zero hq.1) d.ratio_den_pos)
    (Nat.not_le.mpr h)
  have hfar : (2 * (quanta * d.ratio.2) + 2 ^ surplusBits (quanta - 1) * d.ratio.2 : ℚ) ≤
      2 * (d.ratio.1 * quantaOfOne) := by exact_mod_cast Nat.not_lt.mp hfar
  refine le_of_mul_le_mul_right ?_ d.cast_den_pos
  calc _ = (2 * (quanta * d.ratio.2) + 2 ^ surplusBits (quanta - 1) * d.ratio.2 : ℚ) := by ring
    _ ≤ 2 * (d.ratio.1 * quantaOfOne) := hfar
    _ = _ := by
        rw [← worth_mul_den]
        ring

/-- The grid of 17 digits is finer than the format, so that a neighbour reads back. -/
theorem isSome_neighbour?_seventeen (hpos : 0 < quanta) (tie : Tie) :
    (neighbour? tie quanta (magnitude quanta - 17)).isSome = true := by
  obtain ⟨m, hneighbours⟩ := exists_neighbours tie quanta (magnitude quanta - 17)
  cases hfound : neighbour? tie quanta (magnitude quanta - 17) with
  | some d => rfl
  | none =>
    have hne {d : Decimal} (hd : d = ⟨m, magnitude quanta - 17⟩ ∨
        d = ⟨m + 1, magnitude quanta - 17⟩) : d.rounded ≠ quanta := by
      intro heq
      obtain ⟨found, hsome, -⟩ := hneighbours.exists_found d hd ((reads_iff_rounded hq).mpr heq)
      rw [hfound] at hsome
      cases hsome
    have hlow := worth_le_of_rounded_lt hq
      (Nat.lt_of_le_of_ne (rounded_le hq hneighbours.below) (hne (.inl rfl)))
    have hhigh := le_worth_of_lt_rounded hq
      (Nat.lt_of_le_of_ne (le_rounded hq hneighbours.above.le) (hne (.inr rfl)).symm)
    have hgap : worth ⟨m + 1, magnitude quanta - 17⟩ =
        worth ⟨m, magnitude quanta - 17⟩ + 10 ^ (magnitude quanta - 17) := by
      simp only [worth]
      push_cast
      ring
    have hgrid : (10 : ℚ) ^ (magnitude quanta - 17) * 10 ^ 16 * quantaOfOne ≤ quanta := by
      have hmagnitude := (magnitude_spec hpos).1
      rw [worthOfQuanta, le_div_iff₀ cast_quantaOfOne_pos] at hmagnitude
      rwa [← zpow_natCast, ← zpow_add₀ (by norm_num),
        show magnitude quanta - 17 + (16 : Nat) = magnitude quanta - 1 by omega]
    have hbits : (quanta : ℚ) ≤ 2 ^ 53 * 2 ^ surplusBits (quanta - 1) := by
      have hlt : quanta - 1 < 2 ^ (53 + surplusBits (quanta - 1)) :=
        surplusBits_le_iff.mp (Nat.le_refl _)
      rw [← pow_add]
      exact_mod_cast (show quanta ≤ 2 ^ (53 + surplusBits (quanta - 1)) by omega)
    -- Both neighbours are too far away for a grid that is so fine.
    have hunit : (0 : ℚ) < 2 ^ surplusBits (quanta - 1) := by positivity
    rw [hgap] at hhigh
    generalize (2 : ℚ) ^ surplusBits (quanta - 1) = unit at *
    nlinarith

end

/-! ## The search -/

section

variable {quanta : Nat} (hpos : 0 < quanta)
include hpos

/-- Between a number and a decimal, the grid of as many digits has a decimal, too. -/
theorem exists_between {d : Decimal} {k : Nat} (hk : d.digits < 10 ^ (k + 1)) :
    ∃ n, Between quanta d ⟨n, magnitude quanta - 1 - k⟩ := by
  obtain ⟨digits, exponent⟩ := d
  rcases le_or_gt (magnitude quanta - 1 - k) exponent with hle | hlt
  · -- The decimal lies on the grid itself.
    obtain ⟨n, hn⟩ := Int.le.dest hle
    refine ⟨digits * 10 ^ n, between_of_worth_eq quanta ?_⟩
    simp only [worth, ← hn]
    rw [zpow_add₀ (by norm_num), zpow_natCast]
    push_cast
    ring
  · -- It is finer, so the power of ten below the number lies between.
    have hpower : worth ⟨10 ^ k, magnitude quanta - 1 - k⟩ = 10 ^ (magnitude quanta - 1) := by
      simp only [worth]
      push_cast
      rw [← zpow_natCast, ← zpow_add₀ (by norm_num), show k + (magnitude quanta - 1 - k) =
        magnitude quanta - 1 by omega]
    refine ⟨10 ^ k, .inl ⟨?_, hpower ▸ (magnitude_spec hpos).1⟩⟩
    rw [hpower]
    calc worth ⟨digits, exponent⟩ ≤ 10 ^ ((k + 1 : Nat) : Int) * 10 ^ exponent := by
          refine mul_le_mul_of_nonneg_right ?_ (by positivity)
          rw [zpow_natCast]
          exact_mod_cast hk.le
      _ = 10 ^ ((k + 1 : Nat) + exponent) := (zpow_add₀ (by norm_num) _ _).symm
      _ ≤ 10 ^ (magnitude quanta - 1) := zpow_le_zpow_right₀ (by norm_num) (by omega)

/-- The grid of as many digits as a decimal that reads back has a neighbour that does, and is as
near at least. -/
theorem exists_neighbour?_of_digits (hq : Representable quanta) {d : Decimal}
    (hd : d.reads quanta = true) {k : Nat} (hk : d.digits < 10 ^ (k + 1)) (tie : Tie) :
    ∃ found, neighbour? tie quanta (magnitude quanta - 1 - k) = some found ∧
      distance quanta found ≤ distance quanta d := by
  obtain ⟨n, hbetween⟩ := exists_between hpos hk
  obtain ⟨found, hfound, hdistance⟩ :=
    exists_neighbour?_of_reads hq (reads_between hq hd hbetween) tie
  exact ⟨found, hfound, hdistance.trans hbetween.distance_le⟩

/-- A neighbour on a grid has its digits, or is the power of ten above the number. -/
theorem digits_le_of_neighbour? {tie : Tie} {k : Nat} {d : Decimal}
    (h : neighbour? tie quanta (magnitude quanta - 1 - k) = some d) :
    d.digits ≤ 10 ^ (k + 1) := by
  obtain ⟨m, hneighbours⟩ := exists_neighbours tie quanta (magnitude quanta - 1 - k)
  have hm : m < 10 ^ (k + 1) := by
    have hpower : (10 : ℚ) ^ magnitude quanta =
        10 ^ (k + 1) * 10 ^ (magnitude quanta - 1 - k) := by
      rw [← zpow_natCast, ← zpow_add₀ (by norm_num)]
      congr 1
      omega
    have hlt := hneighbours.below.trans_lt (magnitude_spec hpos).2
    rw [hpower] at hlt
    have hm : (m : ℚ) < 10 ^ (k + 1) := lt_of_mul_lt_mul_right hlt (by positivity)
    exact_mod_cast hm
  rcases hneighbours.eq_of_found d h with rfl | rfl
  · exact hm.le
  · exact hm

/-- The search stops at the number of digits of a decimal that reads back. -/
theorem exists_shortest_eq (hq : Representable quanta) {d : Decimal} (hd : d.reads quanta = true)
    {k : Nat} (hk : d.digits < 10 ^ (k + 1)) (tie : Tie) : ∃ further ≤ k, ∃ found,
      neighbour? tie quanta (magnitude quanta - 1 - further) = some found ∧
        shortest tie quanta = found.normalize := by
  obtain ⟨j, hjk, hj, hsome⟩ : ∃ j ≤ k, j < 17 ∧
      (neighbour? tie quanta (magnitude quanta - 1 - j)).isSome = true := by
    rcases Nat.lt_or_ge k 17 with hlt | hge
    · obtain ⟨found, hfound, -⟩ := exists_neighbour?_of_digits hpos hq hd hk tie
      exact ⟨k, Nat.le_refl k, hlt, Option.isSome_iff_exists.mpr ⟨found, hfound⟩⟩
    · refine ⟨16, by omega, by decide, ?_⟩
      rw [show magnitude quanta - 1 - (16 : Nat) = magnitude quanta - 17 by omega]
      exact isSome_neighbour?_seventeen hq hpos tie
  obtain ⟨r, hr⟩ : ∃ r, 17 = j + 1 + r := ⟨17 - (j + 1), by omega⟩
  have hrange : List.range 17 = List.range (j + 1) ++ (List.range r).map (j + 1 + ·) := by
    rw [hr, List.range_add]
  unfold shortest
  rw [if_neg hpos.ne']
  simp only [hrange, List.findSome?_append]
  cases hfound : (List.range (j + 1)).findSome? fun further : Nat =>
      neighbour? tie quanta (magnitude quanta - 1 - further) with
  | none =>
    have hnone := List.findSome?_eq_none_iff.mp hfound j (List.mem_range.mpr j.lt_succ_self)
    rw [hnone] at hsome
    cases hsome
  | some found =>
    obtain ⟨further, hfurther, hneighbour⟩ := List.exists_of_findSome?_eq_some hfound
    have hle : further ≤ k := by
      have := List.mem_range.mp hfurther
      omega
    exact ⟨further, hle, found, hneighbour, rfl⟩

end

/-! ## Normal form -/

theorem worth_normalize (d : Decimal) : d.normalize.worth = d.worth := by
  induction d using normalize.induct with
  | case1 d hzero =>
    rw [normalize, if_pos hzero]
    simp [worth, hzero]
  | case2 d hzero hten ih =>
    rw [normalize, if_neg hzero, if_pos hten, ih]
    obtain ⟨n, hn⟩ := Nat.dvd_of_mod_eq_zero hten
    simp only [worth, hn, Nat.mul_div_cancel_left n (by decide : 0 < 10)]
    rw [zpow_add_one₀ (by norm_num)]
    push_cast
    ring
  | case3 d hzero hten => rw [normalize, if_neg hzero, if_neg hten]

/-- Without the zeros at its end a power of ten has fewer digits. -/
theorem digits_normalize_lt {d : Decimal} {k : Nat} (h : d.digits ≤ 10 ^ (k + 1)) :
    d.normalize.digits < 10 ^ (k + 1) := by
  induction d using normalize.induct with
  | case1 d hzero =>
    rw [normalize, if_pos hzero]
    exact Nat.pow_pos (by decide)
  | case2 d hzero hten ih =>
    rw [normalize, if_neg hzero, if_pos hten]
    exact ih ((Nat.div_le_self _ _).trans h)
  | case3 d hzero hten =>
    rw [normalize, if_neg hzero, if_neg hten]
    refine Nat.lt_of_le_of_ne h fun heq => hten ?_
    rw [heq, Nat.pow_succ, Nat.mul_mod_left]

/-! ## The shortest decimal -/

theorem length_digitText_le_iff {n k : Nat} : (digitText n).length ≤ k + 1 ↔ n < 10 ^ (k + 1) :=
  Nat.length_toDigits_le_iff (by decide) k.succ_pos

theorem exists_length_digitText (n : Nat) : ∃ k, (digitText n).length = k + 1 :=
  Nat.exists_eq_succ_of_ne_zero (List.length_pos_iff.mpr (areDigits_digitText n).1).ne'

section

variable {quanta : Nat} (hq : Representable quanta) {d : Decimal} (hd : d.reads quanta = true)
  (tie : Tie)
include hq hd

/-- No decimal that reads back has fewer digits than the shortest one. -/
theorem length_digitText_shortest_le :
    (digitText (shortest tie quanta).digits).length ≤ (digitText d.digits).length := by
  obtain ⟨k, hk⟩ := exists_length_digitText d.digits
  rw [hk, length_digitText_le_iff]
  rcases Nat.eq_zero_or_pos quanta with rfl | hpos
  · exact Nat.pow_pos (by decide)
  · obtain ⟨further, hle, found, hfound, heq⟩ :=
      exists_shortest_eq hpos hq hd (length_digitText_le_iff.mp hk.le) tie
    rw [heq]
    exact (digits_normalize_lt (digits_le_of_neighbour? hpos hfound)).trans_le
      (Nat.pow_le_pow_right (by decide) (by omega))

/-- No decimal that reads back with as few digits is nearer than the shortest one. -/
theorem distance_shortest_le
    (h : (digitText d.digits).length ≤ (digitText (shortest tie quanta).digits).length) :
    distance quanta (shortest tie quanta) ≤ distance quanta d := by
  rcases Nat.eq_zero_or_pos quanta with rfl | hpos
  · have hworth : worth ⟨0, 0⟩ = 0 := by rw [worth, Nat.cast_zero, zero_mul]
    have hnumber : worthOfQuanta 0 = 0 := by rw [worthOfQuanta, Nat.cast_zero, zero_div]
    rw [show shortest tie 0 = ⟨0, 0⟩ from if_pos rfl, distance, hworth, hnumber, sub_self, abs_zero]
    exact abs_nonneg _
  · obtain ⟨k, hk⟩ := exists_length_digitText d.digits
    obtain ⟨further, -, found, hfound, heq⟩ :=
      exists_shortest_eq hpos hq hd (length_digitText_le_iff.mp hk.le) tie
    -- The decimal has no more digits than the grid on which the search ended.
    have hdigits : d.digits < 10 ^ (further + 1) := by
      rw [← length_digitText_le_iff]
      refine h.trans (length_digitText_le_iff.mpr ?_)
      rw [heq]
      exact digits_normalize_lt (digits_le_of_neighbour? hpos hfound)
    obtain ⟨found', hfound', hdistance⟩ := exists_neighbour?_of_digits hpos hq hd hdigits tie
    obtain rfl := Option.some.inj (hfound.symm.trans hfound')
    rw [heq, distance, worth_normalize]
    exact hdistance

end

end Decimal

end FilterSelect
