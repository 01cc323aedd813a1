import FilterSelect.Proofs.Number.Fewest

/-!
# Numbers as a browser displays them

A browser displays a number by the nearest of the decimals with the fewest digits that read back. So
does the text of a number here, but it is always in plain notation, where a browser changes to an
exponent for very large and very small numbers, and it has other names for the infinities.

* `Browser.IsShortest`: the decimal that a number is displayed by.
* `Browser.layout`: the digits of a decimal with a point, with zeros, or with an exponent.
* `Browser.ShowsNumber`: the texts that a browser may display a number by.
* `Binary64.IsModerate`: the numbers without an exponent.
* `Browser.lt_pointOf_iff`: the size of a number tells where the point stands in its digits.
* `Browser.showsNumber_text_iff`: the text of a number is one of a browser exactly for those.
-/

namespace FilterSelect

namespace Browser

open Decimal (digitText worth rounded shortest)

/-! ## The notation -/

/-- The decimal reads back as so many quanta, none with fewer digits does, and of those with as many
none is nearer. -/
structure IsShortest (quanta : Nat) (d : Decimal) : Prop where
  reads : d.reads quanta = true
  fewest : ∀ d' : Decimal, d'.reads quanta = true →
    (digitText d.digits).length ≤ (digitText d'.digits).length
  nearest : ∀ d' : Decimal, d'.reads quanta = true →
    (digitText d'.digits).length = (digitText d.digits).length →
      Decimal.distance quanta d ≤ Decimal.distance quanta d'

/-- Where the point stands, counted from the first digit on. -/
def pointOf (d : Decimal) : Int := (digitText d.digits).length + d.exponent

/-- The digits of a decimal, laid out by the place of the point: with zeros behind them, with the
point between them, with zeros in front of them, or with an exponent of ten. -/
def layout (d : Decimal) : List Char :=
  let digits := digitText d.digits
  let point := pointOf d
  if digits.length ≤ point ∧ point ≤ 21 then
    digits ++ List.replicate (point - digits.length).toNat '0'
  else if 0 < point ∧ point ≤ 21 then digits.take point.toNat ++ '.' :: digits.drop point.toNat
  else if -6 < point ∧ point ≤ 0 then
    '0' :: '.' :: (List.replicate (-point).toNat '0' ++ digits)
  else
    digits.take 1 ++ (if digits.length = 1 then [] else '.' :: digits.drop 1) ++
      'e' :: (if 0 < point then '+' else '-') :: digitText (point - 1).natAbs

/-- A text that a browser may display a number by. Of two decimals that are equally near, either may
be displayed. -/
inductive ShowsNumber : Binary64 → String → Prop
  | nan : ShowsNumber .nan "NaN"
  | infinite (negative : Bool) :
    ShowsNumber (.infinite negative) (if negative then "-Infinity" else "Infinity")
  /-- Both zeros are displayed alike. -/
  | zero (negative : Bool) (h : Representable 0) : ShowsNumber (.finite negative 0 h) "0"
  | finite {negative : Bool} {quanta : Nat} {h : Representable quanta} {d : Decimal}
    (hpos : 0 < quanta) (hd : IsShortest quanta d) :
    ShowsNumber (.finite negative quanta h)
      (String.ofList (if negative then '-' :: layout d else layout d))

end Browser

/-- Whether the number is displayed without an exponent and is not infinite: a finite number other
than zero is so from the number nearest to 10⁻⁶ on, and below 10²¹. -/
def Binary64.IsModerate : Binary64 → Prop
  | .nan => True
  | .infinite _ => False
  | .finite _ quanta _ =>
    quanta = 0 ∨ Decimal.rounded ⟨1, -6⟩ ≤ quanta ∧ quanta < Decimal.rounded ⟨1, 21⟩

namespace Browser

open Decimal (digitText worth rounded shortest)

theorem isShortest_shortest {quanta : Nat} (hq : Representable quanta) (tie : Decimal.Tie) :
    IsShortest quanta (shortest tie quanta) where
  reads := Decimal.reads_shortest hq
  fewest _ hd := Decimal.length_digitText_shortest_le hq hd tie
  nearest _ hd h := Decimal.distance_shortest_le hq hd tie h.le

/-! ## The place of the point -/

theorem worth_power (j : Int) : worth ⟨1, j⟩ = 10 ^ j := by simp [worth]

/-- The place of the point tells the powers of ten around a decimal. -/
theorem worth_bounds {d : Decimal} (hpos : 0 < d.digits) :
    (10 : ℚ) ^ (pointOf d - 1) ≤ d.worth ∧ d.worth < 10 ^ pointOf d := by
  obtain ⟨k, hk, hlow, hhigh⟩ := Decimal.digitText_bounds hpos
  have hunit : (0 : ℚ) < 10 ^ d.exponent := by positivity
  have hsplit (i : Nat) : (10 : ℚ) ^ (i + d.exponent) = (10 ^ i : Nat) * 10 ^ d.exponent := by
    rw [zpow_add₀ (by norm_num), zpow_natCast]
    push_cast
    rfl
  rw [pointOf, hk, show ((k + 1 : Nat) : Int) + d.exponent - 1 = k + d.exponent by omega, hsplit,
    hsplit]
  exact ⟨mul_le_mul_of_nonneg_right (Nat.cast_le.mpr hlow) hunit.le,
    mul_lt_mul_of_pos_right (Nat.cast_lt.mpr hhigh) hunit⟩

theorem lt_pointOf_iff_worth {d : Decimal} (hpos : 0 < d.digits) {j : Int} :
    j < pointOf d ↔ worth ⟨1, j⟩ ≤ d.worth := by
  obtain ⟨hlow, hhigh⟩ := worth_bounds hpos
  rw [worth_power]
  constructor
  · intro h
    exact (zpow_le_zpow_right₀ (by norm_num) (by omega)).trans hlow
  · intro h
    exact (zpow_lt_zpow_iff_right₀ (by norm_num)).mp (h.trans_lt hhigh)

/-- Below a power of ten, a decimal of one digit is at most nine of the next unit. -/
theorem worth_le_nine {d : Decimal} (hpos : 0 < d.digits) (hone : (digitText d.digits).length ≤ 1)
    {j : Int} (hbelow : d.worth < worth ⟨1, j⟩) : d.worth ≤ worth ⟨9, j - 1⟩ := by
  have hnine : d.digits ≤ 9 := by
    have := (Nat.length_toDigits_le_iff (b := 10) (by decide) Nat.one_pos).mp hone
    omega
  have hexponent : d.exponent ≤ j - 1 := by
    have hpoint := mt (lt_pointOf_iff_worth hpos).mp (not_le_of_gt hbelow)
    have hlength := List.length_pos_iff.mpr (areDigits_digitText d.digits).1
    unfold pointOf at hpoint
    omega
  exact mul_le_mul (Nat.cast_le.mpr hnine) (zpow_le_zpow_right₀ (by norm_num) hexponent)
    (by positivity) (by positivity)

section

variable {quanta : Nat} (hq : Representable quanta) (hpos : 0 < quanta) {d : Decimal}
include hq hpos

theorem digits_pos_of_reads (hd : d.reads quanta = true) : 0 < d.digits := by
  refine Nat.pos_of_ne_zero fun hzero => ?_
  have hworth : d.worth ≤ worth ⟨0, 0⟩ := by simp [worth, hzero]
  have hrounded : rounded ⟨0, 0⟩ = 0 := by decide +kernel
  have := Decimal.rounded_mono hworth
  rw [hrounded, (Decimal.reads_iff_rounded hq).mp hd] at this
  omega

/-- The point stands behind a place exactly when the number is not below that power of ten. The
power itself has one digit, and no decimal of one digit below it is read as the same number. -/
theorem lt_pointOf_iff (hd : IsShortest quanta d) {j : Int}
    (hj : rounded ⟨9, j - 1⟩ < rounded ⟨1, j⟩) : j < pointOf d ↔ rounded ⟨1, j⟩ ≤ quanta := by
  have hdigits := digits_pos_of_reads hq hpos hd.reads
  have hrounded := (Decimal.reads_iff_rounded hq).mp hd.reads
  constructor
  · intro h
    exact hrounded ▸ Decimal.rounded_mono ((lt_pointOf_iff_worth hdigits).mp h)
  · intro hle
    refine (lt_pointOf_iff_worth hdigits).mpr (le_of_not_gt fun hbelow => ?_)
    have heq : rounded ⟨1, j⟩ = quanta :=
      Nat.le_antisymm hle (hrounded ▸ Decimal.rounded_mono hbelow.le)
    have hdigit : (digitText 1).length = 1 := rfl
    have hone : (digitText d.digits).length ≤ 1 :=
      hdigit ▸ hd.fewest ⟨1, j⟩ ((Decimal.reads_iff_rounded hq).mpr heq)
    have := Decimal.rounded_mono (worth_le_nine hdigits hone hbelow)
    omega

end

/-- Of the numbers other than zero, the moderate ones need no exponent. -/
theorem isModerate_iff_pointOf {negative : Bool} {quanta : Nat} {hq : Representable quanta}
    (hpos : 0 < quanta) {d : Decimal} (hd : IsShortest quanta d) :
    (Binary64.finite negative quanta hq).IsModerate ↔ -6 < pointOf d ∧ pointOf d ≤ 21 := by
  have hlow := lt_pointOf_iff hq hpos hd (j := -6) (by decide +kernel)
  have hhigh := lt_pointOf_iff hq hpos hd (j := 21) (by decide +kernel)
  simp only [Binary64.IsModerate, Nat.ne_of_gt hpos, false_or]
  exact and_congr hlow.symm (not_le.symm.trans ((not_congr hhigh.symm).trans not_lt))

/-! ## Plain notation and exponents -/

/-- As long as no exponent is needed, the layout is the plain notation. -/
theorem layout_eq_positional {d : Decimal} (h : -6 < pointOf d) (h' : pointOf d ≤ 21) :
    layout d = d.positional := by
  obtain ⟨digits, exponent⟩ := d
  unfold layout Decimal.positional
  generalize hpoint : pointOf ⟨digits, exponent⟩ = point at h h' ⊢
  simp only [pointOf] at hpoint ⊢
  cases exponent with
  | ofNat e =>
    rw [Int.ofNat_eq_natCast] at hpoint
    rw [if_pos ⟨by omega, h'⟩, show (point - (digitText digits).length).toNat = e by omega]
  | negSucc e =>
    rw [Int.negSucc_eq] at hpoint
    simp only []
    rw [if_neg (by omega)]
    by_cases hlt : e + 1 < (digitText digits).length
    · rw [if_pos (by omega), if_pos hlt, show point.toNat = (digitText digits).length - (e + 1) by
        omega]
    · rw [if_neg (by omega), if_pos (by omega), if_neg hlt,
        show (-point).toNat = e + 1 - (digitText digits).length by omega]
      rfl

theorem e_mem_layout {d : Decimal} (h : ¬ (-6 < pointOf d ∧ pointOf d ≤ 21)) :
    'e' ∈ layout d := by
  unfold layout
  simp only []
  rw [if_neg (by omega), if_neg (by omega), if_neg (by omega)]
  simp

/-- Two digits, with the point far in front of them. -/
example : layout ⟨15, -8⟩ = "1.5e-7".toList := by decide +kernel

/-- The text of a number is one that a browser may display it by exactly when it is neither
infinite nor needs an exponent there. -/
theorem showsNumber_text_iff {x : Binary64} : ShowsNumber x x.text ↔ x.IsModerate := by
  cases x with
  | nan => exact iff_of_true .nan trivial
  | infinite negative =>
    refine iff_of_false (fun h => ?_) id
    generalize htext : (Binary64.infinite negative).text = text at h
    cases h
    cases negative <;> simp [Binary64.text] at htext
  | finite negative quanta hq =>
    by_cases hzero : quanta = 0
    · subst hzero
      exact iff_of_true (.zero negative hq) (.inl rfl)
    have hpos := Nat.pos_of_ne_zero hzero
    constructor
    · intro h
      generalize htext : (Binary64.finite negative quanta hq).text = text at h
      cases h with
      | zero => exact .inl rfl
      | @finite _ _ _ d _ hd =>
        -- An exponent has an `e`, which no plain text has.
        refine (isModerate_iff_pointOf hpos hd).mpr (not_not.mp fun hpoint => ?_)
        have hplain := Binary64.isPlain_text (x := .finite negative quanta hq) rfl
        have he := e_mem_layout hpoint
        refine absurd (hplain.isDigit_or 'e' ?_) (by decide)
        rw [htext, String.toList_ofList]
        split
        · exact List.mem_cons_of_mem _ he
        · exact he
    · intro h
      have hd := isShortest_shortest hq .up
      obtain ⟨hlow, hhigh⟩ := (isModerate_iff_pointOf hpos hd).mp h
      have hfinite : ShowsNumber (.finite negative quanta hq) _ := .finite hpos hd
      rw [layout_eq_positional hlow hhigh] at hfinite
      simpa [Binary64.text, hzero] using hfinite

/-- A browser has a text for every number. -/
theorem exists_showsNumber (x : Binary64) : ∃ text, ShowsNumber x text := by
  cases x with
  | nan => exact ⟨_, .nan⟩
  | infinite negative => exact ⟨_, .infinite negative⟩
  | finite negative quanta hq =>
    by_cases hzero : quanta = 0
    · subst hzero
      exact ⟨_, .zero negative hq⟩
    · exact ⟨_, .finite (Nat.pos_of_ne_zero hzero) (isShortest_shortest hq .up)⟩

/-! ## Commas -/

theorem comma_not_mem_layout (d : Decimal) : ',' ∉ layout d := by
  have hdigits (n : Nat) : ',' ∉ digitText n := fun hmem =>
    Bool.false_ne_true ((areDigits_digitText n).2 ',' hmem)
  have htake (k n : Nat) : ',' ∉ (digitText n).take k := mt List.mem_of_mem_take (hdigits n)
  have hdrop (k n : Nat) : ',' ∉ (digitText n).drop k := mt List.mem_of_mem_drop (hdigits n)
  unfold layout
  simp only []
  split_ifs <;> simp [hdigits, htake, hdrop, -List.drop_one]

/-- There is no comma in a number, whichever way it is displayed. -/
theorem comma_not_mem_of_showsNumber {x : Binary64} {text : String} (h : ShowsNumber x text) :
    ',' ∉ text.toList := by
  cases h with
  | nan => decide
  | infinite negative => cases negative <;> decide
  | zero => decide
  | @finite negative _ _ d =>
    rw [String.toList_ofList]
    cases negative <;> simp [comma_not_mem_layout]

theorem comma_not_mem_text (x : Binary64) : ',' ∉ x.text.toList := by
  cases x with
  | nan => decide
  | infinite negative => cases negative <;> decide
  | finite =>
    exact fun hmem => absurd ((Binary64.isPlain_text rfl).isDigit_or ',' hmem) (by decide)

end Browser

end FilterSelect
