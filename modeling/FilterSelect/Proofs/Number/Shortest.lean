import FilterSelect.Proofs.Number.Literal

/-!
# Shortest decimals

The shortest decimal of a number reads back as that number, and so does its text. A whole number of
up to 53 bits is its own shortest decimal.

* `Decimal.reads_shortest`: the shortest decimal reads back.
* `Numeral.exists_read?_text`: reading the text of a number keeps the text.
* `Numeral.read?_toString`: the text of a whole number is read as the nearest number.
* `Binary64.text_ofInt`: the texts of whole numbers up to 2⁵³ are their own digits.
-/

namespace FilterSelect

namespace Decimal

/-! ## Reading back -/

theorem reads_iff {quanta : Nat} (h : Representable quanta) {d : Decimal} :
    d.reads quanta = true ↔ roundSignificant (d.ratio.1 * quantaOfOne) d.ratio.2 = quanta := by
  unfold reads
  rw [toBinary64_eq_ofRatio, decide_eq_true_eq]
  unfold Binary64.ofRatio
  generalize roundSignificant (d.ratio.1 * quantaOfOne) d.ratio.2 = q
  refine ⟨fun heq => ?_, fun heq => by rw [heq]⟩
  unfold Binary64.ofQuanta at heq
  rw [dif_pos h] at heq
  split at heq
  · exact (Binary64.finite.inj heq).2
  · cases heq

/-- The sign is carried along. -/
theorem toBinary64_of_reads {quanta : Nat} (h : Representable quanta) {d : Decimal}
    (hd : d.reads quanta = true) (negative : Bool) :
    d.toBinary64 negative = .finite negative quanta h := by
  rw [toBinary64_eq_ofRatio]
  unfold Binary64.ofRatio Binary64.ofQuanta
  rw [(reads_iff h).mp hd, dif_pos h]

/-- Zeros at the end of the digits do not count. -/
theorem toBinary64_normalize (negative : Bool) (d : Decimal) :
    d.normalize.toBinary64 negative = d.toBinary64 negative := by
  induction d using normalize.induct with
  | case1 d h =>
    obtain ⟨digits, exponent⟩ := d
    cases h
    rw [normalize, if_pos rfl]
    exact toBinary64_congr (by cases exponent <;> simp [ratio])
  | case2 d h h' ih =>
    rw [normalize, if_neg h, if_pos h', ih]
    apply toBinary64_congr
    obtain ⟨digits, exponent⟩ := d
    have hdigits : digits / 10 * 10 = digits := Nat.div_mul_cancel (Nat.dvd_of_mod_eq_zero h')
    cases exponent with
    | ofNat e =>
      show digits / 10 * 10 ^ (e + 1) * 1 = digits * 10 ^ e * 1
      rw [Nat.pow_succ', ← Nat.mul_assoc, hdigits]
    | negSucc e =>
      cases e with
      | zero =>
        show digits / 10 * 10 ^ 0 * 10 ^ 1 = digits * 1
        omega
      | succ e =>
        show digits / 10 * 10 ^ (e + 1 + 1) = digits * 10 ^ (e + 1)
        rw [Nat.pow_succ', ← Nat.mul_assoc, hdigits]
  | case3 d h h' =>
    rw [normalize, if_neg h, if_neg h']

theorem reads_normalize {quanta : Nat} {d : Decimal} :
    d.normalize.reads quanta = d.reads quanta := by
  unfold reads
  rw [toBinary64_normalize]

theorem reads_of_neighbour? {tie : Tie} {quanta : Nat} {exponent : Int} {d : Decimal}
    (h : neighbour? tie quanta exponent = some d) :
    d.exponent = exponent ∧ d.reads quanta = true := by
  have hexponent (below : Bool) (m : Nat) (e : Int) : ∀ d ∈ (if below then [⟨m, e⟩, ⟨m + 1, e⟩]
      else [⟨m + 1, e⟩, ⟨m, e⟩] : List Decimal), d.exponent = e := by
    cases below <;> simp
  unfold neighbour? at h
  refine ⟨?_, List.find?_some h⟩
  have hmem := List.mem_of_find?_eq_some h
  split at hmem
  · exact hexponent _ _ _ d hmem
  · exact hexponent _ _ _ d hmem

/-- All the digits of a number read back. -/
theorem reads_exact {quanta : Nat} (h : Representable quanta) :
    (exact quanta).reads quanta = true := by
  obtain ⟨b, hb⟩ : ∃ b, quantumBits = b + 1 := ⟨1073, rfl⟩
  rw [reads_iff h]
  unfold exact quantaOfOne
  rw [hb]
  show roundSignificant (quanta * 5 ^ (b + 1) * 2 ^ (b + 1)) (10 ^ (b + 1)) = quanta
  rw [Nat.mul_assoc, ← Nat.mul_pow, roundSignificant_of_representable h (Nat.pow_pos (by decide))]

theorem reads_shortest {tie : Tie} {quanta : Nat} (h : Representable quanta) :
    (shortest tie quanta).reads quanta = true := by
  unfold shortest
  split
  · rename_i hzero
    subst hzero
    have hratio : ratio ⟨0, 0⟩ = (0, 1) := rfl
    rw [reads_iff h, hratio]
    simpa using roundSignificant_of_representable h Nat.one_pos
  · simp only [reads_normalize]
    cases hfound : (List.range 17).findSome? fun further : Nat =>
        neighbour? tie quanta (magnitude quanta - 1 - further) with
    | none => exact reads_exact h
    | some d =>
      obtain ⟨further, -, hd⟩ := List.exists_of_findSome?_eq_some hfound
      exact (reads_of_neighbour? hd).2

/-! ## The plain notation -/

theorem digits_digitText (n : Nat) : Digits 10 (digitText n) n :=
  Numeral.digits_ten_iff.mpr ⟨areDigits_digitText n, Nat.ofDigitChars_ten_toDigits⟩

theorem literal_of_mantissa {cs : List Char} {d : Decimal} (h : Mantissa cs d) (negative : Bool) :
    DecimalLiteral (if negative then '-' :: cs else cs) negative d := by
  cases negative with
  | false => simpa using DecimalLiteral.mk .absent h .absent
  | true => simpa using DecimalLiteral.mk .minus h .absent

/-- The plain notation has digits with the worth of the decimal. -/
theorem exists_mantissa_positional (d : Decimal) : ∃ d', Mantissa d.positional d' ∧
    ∀ negative, d'.toBinary64 negative = d.toBinary64 negative := by
  obtain ⟨digits, exponent⟩ := d
  have hdigits := areDigits_digitText digits
  have hnumber : Nat.ofDigitChars 10 (digitText digits) 0 = digits := Nat.ofDigitChars_ten_toDigits
  unfold positional
  cases exponent with
  | ofNat e =>
    refine ⟨⟨digits * 10 ^ e, 0⟩, .whole (Numeral.digits_ten_iff.mpr ⟨?_, ?_⟩), fun negative =>
      toBinary64_congr ?_⟩
    · exact hdigits.append isDigit_of_mem_replicate
    · rw [Nat.ofDigitChars_append, hnumber, Nat.ofDigitChars_replicate_zero, Nat.mul_comm]
    · show digits * 10 ^ e * 10 ^ 0 * 1 = digits * 10 ^ e * 1
      omega
  | negSucc e =>
    refine ⟨⟨digits, .negSucc e⟩, ?_, fun _ => rfl⟩
    simp only []
    generalize digitText digits = ds at hdigits hnumber ⊢
    split
    · rename_i hlt
      have hall : Digits 10
          (ds.take (ds.length - (e + 1)) ++ ds.drop (ds.length - (e + 1))) digits := by
        rw [List.take_append_drop]
        exact Numeral.digits_ten_iff.mpr ⟨hdigits, hnumber⟩
      have hplaces : -((ds.drop (ds.length - (e + 1))).length : Int) = .negSucc e := by
        rw [List.length_drop, Int.negSucc_eq]
        omega
      rw [← hplaces]
      exact .point hall
    · rename_i hge
      have hall : Digits 10 (['0'] ++ (List.replicate (e + 1 - ds.length) '0' ++ ds)) digits := by
        refine Numeral.digits_ten_iff.mpr ⟨?_, ?_⟩
        · exact .prepend (by simp) (.prepend isDigit_of_mem_replicate hdigits)
        · rw [Nat.ofDigitChars_append, Nat.ofDigitChars_append, Nat.ofDigitChars_replicate_zero]
          simpa [Nat.ofDigitChars_cons] using hnumber
      have hplaces : -((List.replicate (e + 1 - ds.length) '0' ++ ds).length : Int) =
          .negSucc e := by
        rw [List.length_append, List.length_replicate, Int.negSucc_eq]
        omega
      rw [← hplaces]
      exact .point hall

end Decimal

/-! ## Texts of numbers -/

theorem isBlank_of_isPlain {cs : List Char} (h : IsPlain cs) :
    ∀ c ∈ cs, Text.isBlank c = false := by
  intro c hc
  rcases h.isDigit_or c hc with hdigit | rfl | rfl
  · have hdigit := Char.isDigit_iff_toNat.mp hdigit
    simp only [Char.reduceToNat] at hdigit
    rw [← Bool.not_eq_true]
    simp only [Text.isBlank, Text.blanks, Text.Ranges.contains, List.any_cons, List.any_nil,
      Bool.or_eq_true, Bool.and_eq_true, decide_eq_true_eq, Bool.false_eq_true, or_false]
    omega
  · decide
  · decide

theorem strip_of_isPlain {cs : List Char} (h : IsPlain cs) : Text.strip cs = cs :=
  Text.trimmed_of_forall (isBlank_of_isPlain h)

namespace Numeral

/-- A plain text is read by its digits. -/
theorem read?_of_isPlain {text : String} {negative : Bool} {d : Decimal}
    (hplain : IsPlain text.toList) (h : DecimalLiteral text.toList negative d)
    (hfinite : (d.toBinary64 negative).isFinite = true) :
    read? text = some (d.toBinary64 negative) :=
  read?_eq_some_iff.mpr (.inl ⟨negative, d, by rwa [strip_of_isPlain hplain],
    Decimal.isFinite_toBinary64_iff.mp hfinite, rfl⟩)

/-- Reading the text of a number keeps the text. -/
theorem exists_read?_text {x : Binary64} (h : x.isFinite = true) :
    ∃ y, read? x.text = some y ∧ y.text = x.text := by
  cases hx : x with
  | nan => rw [hx] at h; cases h
  | infinite => rw [hx] at h; cases h
  | finite negative quanta hrep =>
    rw [← hx]
    by_cases hzero : quanta = 0
    · -- The two zeros share a text, which is read as the positive one.
      have htext : x.text = "0" := by rw [hx, Binary64.text, if_pos hzero]
      have hread : (read? "0").map Binary64.text = some "0" := by decide +kernel
      rw [htext]
      exact Option.map_eq_some_iff.mp hread
    · obtain ⟨d, hm, hd⟩ := (Decimal.shortest .up quanta).exists_mantissa_positional
      have hback : d.toBinary64 negative = x := by
        rw [hd, Decimal.toBinary64_of_reads hrep (Decimal.reads_shortest hrep), hx]
      have hliteral : DecimalLiteral x.text.toList negative d := by
        rw [hx, Binary64.text, if_neg hzero, String.toList_ofList]
        exact Decimal.literal_of_mantissa hm negative
      refine ⟨x, ?_, rfl⟩
      rw [read?_of_isPlain (Binary64.isPlain_text h) hliteral (hback ▸ h), hback]

end Numeral

/-! ## Whole numbers -/

/-- The number nearest to a whole number. -/
def Binary64.ofInt (n : Int) : Binary64 := ofRatio (n < 0) n.natAbs 1

theorem toList_toString (n : Int) : (toString n).toList =
    if decide (n < 0) then '-' :: Decimal.digitText n.natAbs else Decimal.digitText n.natAbs := by
  unfold Decimal.digitText
  rw [Int.toString_eq_repr, Int.repr_eq_if]
  split
  · rw [if_neg (by simpa using ‹0 ≤ n›), Nat.toList_repr, show n.toNat = n.natAbs by omega]
  · rw [if_pos (by simpa using ‹¬ 0 ≤ n›), String.toList_append, Nat.toList_repr,
      show (-n).toNat = n.natAbs by omega]
    rfl

theorem toBinary64_whole (negative : Bool) (n : Nat) :
    Decimal.toBinary64 negative ⟨n, 0⟩ = .ofRatio negative n 1 := by
  have hratio : Decimal.ratio ⟨n, 0⟩ = (n * 10 ^ 0, 1) := rfl
  rw [Decimal.toBinary64_eq_ofRatio, hratio, Nat.pow_zero, Nat.mul_one]

/-- The text of a whole number is read as the number nearest to it. -/
theorem Numeral.read?_toString {n : Int} (hn : n.natAbs < 2 ^ 64) :
    read? (toString n) = some (.ofInt n) := by
  have hliteral : DecimalLiteral (toString n).toList (n < 0) ⟨n.natAbs, 0⟩ := by
    rw [toList_toString]
    exact Decimal.literal_of_mantissa (.whole (Decimal.digits_digitText n.natAbs)) _
  have hfinite : (Decimal.toBinary64 (n < 0) ⟨n.natAbs, 0⟩).isFinite = true := by
    rw [toBinary64_whole, Binary64.isFinite_ofRatio_iff Nat.one_pos, Nat.mul_one]
    exact Nat.lt_of_lt_of_le hn Binary64.two_pow_le_overflow
  rw [read?_of_isPlain (isPlain_toString n) hliteral hfinite, toBinary64_whole]
  rfl

/-! ## Whole numbers up to 53 bits -/

namespace Decimal

theorem digitText_mul_pow {m : Nat} (hm : 0 < m) (e : Nat) :
    digitText (m * 10 ^ e) = digitText m ++ List.replicate e '0' := by
  induction e with
  | zero => simp
  | succ e ih =>
    have hpos : 0 < m * 10 ^ e := Nat.mul_pos hm (Nat.pow_pos (by decide))
    have hsnoc : digitText (10 * (m * 10 ^ e) + 0) = digitText (m * 10 ^ e) ++ digitText 0 :=
      (Nat.toDigits_append_toDigits (by decide) hpos (by decide)).symm
    rw [Nat.pow_succ, ← Nat.mul_assoc, Nat.mul_comm, ← Nat.add_zero (10 * _), hsnoc, ih,
      List.replicate_succ', ← List.append_assoc]
    rfl

theorem positional_whole {d : Decimal} {e : Nat} (h : d.exponent = e) :
    d.positional = digitText d.digits ++ List.replicate e '0' := by
  obtain ⟨digits, exponent⟩ := d
  cases h
  rfl

theorem exists_normalize_whole {d : Decimal} {e : Nat} (h : d.exponent = e) :
    ∃ e' : Nat, d.normalize.exponent = e' ∧ d.normalize.digits * 10 ^ e' = d.digits * 10 ^ e := by
  induction d using normalize.induct generalizing e with
  | case1 d hzero =>
    rw [normalize, if_pos hzero]
    exact ⟨0, rfl, by simp [hzero]⟩
  | case2 d hzero hten ih =>
    obtain ⟨e', hexponent, hdigits⟩ := ih (e := e + 1) (by simp [h])
    rw [normalize, if_neg hzero, if_pos hten]
    refine ⟨e', hexponent, ?_⟩
    rw [hdigits, Nat.pow_succ', ← Nat.mul_assoc,
      Nat.div_mul_cancel (Nat.dvd_of_mod_eq_zero hten)]
  | case3 d hzero hten =>
    rw [normalize, if_neg hzero, if_neg hten]
    exact ⟨e, h, rfl⟩

theorem magnitude_whole {n : Nat} (hn : 0 < n) :
    magnitude (n * quantaOfOne) = (digitText n).length := by
  obtain ⟨p, hp⟩ : ∃ p : Nat, ∀ quanta, magnitude quanta =
      ((digitText (quanta * Nat.pow 10 p / quantaOfOne)).length : Int) - p := ⟨_, fun _ => rfl⟩
  have hscale : n * quantaOfOne * Nat.pow 10 p / quantaOfOne = n * 10 ^ p := by
    rw [Nat.mul_right_comm]
    exact Nat.mul_div_cancel _ quantaOfOne_pos
  rw [hp, hscale, digitText_mul_pow hn, List.length_append, List.length_replicate]
  omega

theorem reads_whole {n : Nat} (hn : n ≤ 2 ^ 53) : reads (n * quantaOfOne) ⟨n, 0⟩ = true := by
  have hratio : ratio ⟨n, 0⟩ = (n * 10 ^ 0, 1) := rfl
  rw [reads_iff (representable_whole hn), hratio, Nat.pow_zero, Nat.mul_one]
  simpa using roundSignificant_of_representable (representable_whole hn) Nat.one_pos

theorem neighbour?_whole (tie : Tie) (quanta e : Nat) : neighbour? tie quanta e =
    (if belowFirst tie quanta (quantaOfOne * 10 ^ e)
      then [⟨quanta / (quantaOfOne * 10 ^ e), e⟩, ⟨quanta / (quantaOfOne * 10 ^ e) + 1, e⟩]
      else [⟨quanta / (quantaOfOne * 10 ^ e) + 1, e⟩, ⟨quanta / (quantaOfOne * 10 ^ e), e⟩]).find?
      (reads quanta) := rfl

/-- On the grid of the units a whole number is its own neighbour. -/
theorem neighbour?_zero (tie : Tie) {n : Nat} (hn : n ≤ 2 ^ 53) :
    neighbour? tie (n * quantaOfOne) 0 = some ⟨n, 0⟩ := by
  have hfirst : belowFirst tie (n * quantaOfOne) quantaOfOne = true := by
    unfold belowFirst
    rw [Nat.mul_mod_left, if_neg (Nat.ne_of_lt quantaOfOne_pos)]
    simpa using quantaOfOne_pos
  have hcell := neighbour?_whole tie (n * quantaOfOne) 0
  simp only [Nat.pow_zero, Nat.mul_one, hfirst, Nat.mul_div_cancel _ quantaOfOne_pos, if_true,
    Int.natCast_zero] at hcell
  rw [hcell, List.find?_cons_of_pos]
  exact reads_whole hn

/-- A neighbour with a whole number of units is the number itself. -/
theorem eq_of_neighbour? {tie : Tie} {n e : Nat} (hn : n ≤ 2 ^ 53) {d : Decimal}
    (h : neighbour? tie (n * quantaOfOne) e = some d) :
    d.exponent = e ∧ d.digits * 10 ^ e = n := by
  cases e with
  | zero =>
    rw [Int.natCast_zero, neighbour?_zero tie hn] at h
    cases h
    exact ⟨rfl, Nat.mul_one n⟩
  | succ e =>
    obtain ⟨hexponent, hreads⟩ := reads_of_neighbour? h
    refine ⟨hexponent, eq_of_roundSignificant hn ?_ ?_⟩
    · rw [Nat.pow_succ, ← Nat.mul_assoc]
      omega
    · have hratio : d.ratio = (d.digits * 10 ^ (e + 1), 1) := by
        obtain ⟨digits, exponent⟩ := d
        cases hexponent
        rfl
      rw [reads_iff (representable_whole hn), hratio] at hreads
      exact hreads

/-- The grids are tried down to the one of the units at least, so the shortest decimal has a whole
number of units. -/
theorem shortest_whole (tie : Tie) {n : Nat} (hn : 0 < n) (hn' : n ≤ 2 ^ 53) :
    ∃ e : Nat, (shortest tie (n * quantaOfOne)).exponent = e ∧
      (shortest tie (n * quantaOfOne)).digits * 10 ^ e = n := by
  have hlength : 0 < (digitText n).length := List.length_pos_iff.mpr (areDigits_digitText n).1
  have hlength' : (digitText n).length ≤ 16 :=
    (Nat.length_toDigits_le_iff (by decide) (by decide)).mpr
      (Nat.lt_of_le_of_lt hn' (by decide))
  obtain ⟨k, hk⟩ : ∃ k, 17 = (digitText n).length + k := ⟨17 - (digitText n).length, by omega⟩
  have hexponent {further : Nat} (h : further < (digitText n).length) :
      magnitude (n * quantaOfOne) - 1 - further =
        (((digitText n).length - 1 - further : Nat) : Int) := by
    rw [magnitude_whole hn]
    omega
  unfold shortest
  rw [if_neg (Nat.ne_of_gt (Nat.mul_pos hn quantaOfOne_pos))]
  simp only [hk, List.range_add, List.findSome?_append]
  cases hfound : (List.range (digitText n).length).findSome? fun further : Nat =>
      neighbour? tie (n * quantaOfOne) (magnitude (n * quantaOfOne) - 1 - further) with
  | none =>
    have hunits := List.findSome?_eq_none_iff.mp hfound ((digitText n).length - 1)
      (List.mem_range.mpr (by omega))
    rw [hexponent (by omega), Nat.sub_self, Int.natCast_zero, neighbour?_zero tie hn'] at hunits
    cases hunits
  | some d =>
    obtain ⟨further, hfurther, hd⟩ := List.exists_of_findSome?_eq_some hfound
    rw [hexponent (List.mem_range.mp hfurther)] at hd
    obtain ⟨hd, hdigits⟩ := eq_of_neighbour? hn' hd
    obtain ⟨e, he, heq⟩ := exists_normalize_whole hd
    exact ⟨e, he, heq.trans hdigits⟩

theorem positional_shortest_whole {tie : Tie} {n : Nat} (hn : 0 < n) (hn' : n ≤ 2 ^ 53) :
    (shortest tie (n * quantaOfOne)).positional = digitText n := by
  obtain ⟨e, hexponent, hdigits⟩ := shortest_whole tie hn hn'
  have hpos : 0 < (shortest tie (n * quantaOfOne)).digits :=
    Nat.pos_of_mul_pos_right (Nat.lt_of_lt_of_eq hn hdigits.symm)
  rw [positional_whole hexponent, ← digitText_mul_pow hpos, hdigits]

end Decimal

namespace Binary64

/-- A whole number of up to 53 bits is displayed as its digits. -/
theorem text_ofInt {n : Int} (hn : n.natAbs ≤ 2 ^ 53) : (ofInt n).text = toString n := by
  have hfinite : ofInt n = .finite (n < 0) (n.natAbs * quantaOfOne)
      (representable_whole hn) := by
    rw [← Decimal.toBinary64_of_reads _ (Decimal.reads_whole hn), toBinary64_whole]
    rfl
  rw [hfinite, text, ← String.toList_inj, toList_toString]
  split
  · rename_i hzero
    have hn : n = 0 := by
      rcases Nat.mul_eq_zero.mp hzero with h | h
      · exact Int.natAbs_eq_zero.mp h
      · exact absurd h (Nat.ne_of_gt quantaOfOne_pos)
    subst hn
    rfl
  · rename_i hpos
    have hne : n.natAbs ≠ 0 := fun h => hpos (by rw [h, Nat.zero_mul])
    rw [String.toList_ofList, Decimal.positional_shortest_whole (Nat.pos_of_ne_zero hne) hn]

/-- The nearest number is displayed as the digits of a whole number where any number is. -/
theorem text_ofInt_eq_iff {n : Int} (hn : n.natAbs < 2 ^ 64) :
    (ofInt n).text = toString n ↔ ∃ x : Binary64, x.isFinite = true ∧ x.text = toString n := by
  have hread := Numeral.read?_toString hn
  constructor
  · intro h
    exact ⟨ofInt n, Numeral.isFinite_of_read? hread, h⟩
  · rintro ⟨x, hx, htext⟩
    obtain ⟨y, hy, hxy⟩ := Numeral.exists_read?_text hx
    rw [htext, hread] at hy
    cases hy
    rw [hxy, htext]

end Binary64

end FilterSelect
