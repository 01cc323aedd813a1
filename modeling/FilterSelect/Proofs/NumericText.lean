import FilterSelect.Proofs.Number.Literal

/-!
# Numbers in a browser

A text counts as a number where a browser takes it for one in both of its ways: it reads a number
from the beginning of the text, and it makes a finite number of the whole text.

* `Browser.ReadsNumber`, `Browser.IsFiniteNumber`: the two ways of a browser.
* `Browser.isNumeric_iff`: together they take the finite literals with white space around them.
* `Value.isNumeric_text_iff`: the texts that count as numbers here.
* `Browser.Disputed`: the texts that only one of the two takes for a number.
* `Value.agrees_browser_iff`: there are no others.
-/

namespace FilterSelect

namespace Browser

open Binary64 (overflow)

/-! ## White space -/

/-- The white space and the line ends of a browser's language: unlike the White_Space property, they
include the byte order mark U+FEFF, and not the next line U+0085. -/
def spaces : Text.Ranges :=
  [(0x09, 0x0D), (0x20, 0x20), (0xA0, 0xA0), (0x1680, 0x1680), (0x2000, 0x200A), (0x2028, 0x2029),
    (0x202F, 0x202F), (0x205F, 0x205F), (0x3000, 0x3000), (0xFEFF, 0xFEFF)]

/-- Whether the character is white space or ends a line. -/
def isSpace (c : Char) : Bool := spaces.contains c

/-- The text without the white space at its two ends. -/
def trim (cs : List Char) : List Char := Text.trimmed isSpace cs

/-! ## Numbers -/

/-- A decimal with a finite value, or a whole number below a limit in the radix that its mark
announces. -/
inductive Literal (limit : Nat) (cs : List Char) : Prop
  | decimal {negative : Bool} {d : Decimal} (h : DecimalLiteral cs negative d)
    (hd : d.ratio.1 < overflow * d.ratio.2)
  | radix {n : Nat} (h : RadixLiteral [] cs n) (hn : n < limit)

/-- An infinity with an optional sign. -/
def IsInfinity (cs : List Char) : Prop :=
  ∃ sign negative, Sign sign negative ∧ cs = sign ++ "Infinity".toList

/-- Behind its white space the text begins with a decimal or an infinity. -/
def ReadsNumber (cs : List Char) : Prop :=
  ∃ start rest, cs.dropWhile isSpace = start ++ rest ∧
    ((∃ negative d, DecimalLiteral start negative d) ∨ IsInfinity start)

/-- Between its white space the text is nothing, which makes zero, or a literal with a finite value.
-/
def IsFiniteNumber (cs : List Char) : Prop := trim cs = [] ∨ Literal overflow (trim cs)

/-- The text is a number in both ways. -/
def IsNumeric (cs : List Char) : Prop := ReadsNumber cs ∧ IsFiniteNumber cs

/-- A text that is a number in a browser and not here, or here and not in a browser. -/
inductive Disputed (cs : List Char) : Prop
  /-- There is a plus sign between the radix mark and the digits. -/
  | plus {n : Nat} (h : RadixLiteral ['+'] (Text.strip cs) n) (hn : n < 2 ^ 64)
  /-- The whole number behind the radix mark has more than 64 bits. -/
  | large {n : Nat} (h : RadixLiteral [] (trim cs) n) (hn : n < overflow) (hlarge : 2 ^ 64 ≤ n)
  /-- A byte order mark stands beside a literal. -/
  | orderMark (h : Literal overflow (trim cs)) (hc : '\uFEFF' ∈ cs)
  /-- A next line stands beside a literal. -/
  | nextLine (h : Literal (2 ^ 64) (Text.strip cs)) (hc : '\u0085' ∈ cs)

/-! ## Trimming -/

theorem isBlank_eq_isSpace {c : Char} (h₁ : c ≠ '\u0085') (h₂ : c ≠ '\uFEFF') :
    Text.isBlank c = isSpace c := by
  have h₁' : c.toNat ≠ 0x85 := fun h => h₁ (Char.toNat_inj.mp h)
  have h₂' : c.toNat ≠ 0xFEFF := fun h => h₂ (Char.toNat_inj.mp h)
  rw [Bool.eq_iff_iff]
  simp only [Text.isBlank, Text.blanks, isSpace, spaces, Text.Ranges.contains, List.any_cons,
    List.any_nil, Bool.or_eq_true, Bool.and_eq_true, decide_eq_true_eq, Bool.false_eq_true,
    or_false]
  omega

/-- The two trimmings differ only where one of the two characters stands. -/
theorem strip_eq_trim {cs : List Char} (h₁ : '\u0085' ∉ cs) (h₂ : '\uFEFF' ∉ cs) :
    Text.strip cs = trim cs := by
  rw [Text.strip_eq_trimmed]
  refine Text.trimmed_congr fun c hc => isBlank_eq_isSpace ?_ ?_
  · rintro rfl
    exact h₁ hc
  · rintro rfl
    exact h₂ hc

/-! ## Literals -/

theorem Literal.isNumeralChar {limit : Nat} {cs : List Char} (h : Literal limit cs) :
    ∀ c ∈ cs, Numeral.isNumeralChar c = true := by
  cases h with
  | decimal h => exact Numeral.isNumeralChar_of_decimalLiteral h
  | radix h => exact Numeral.isNumeralChar_of_radixLiteral (by simp) h

theorem Literal.mono {limit limit' : Nat} (hle : limit ≤ limit') {cs : List Char}
    (h : Literal limit cs) : Literal limit' cs := by
  cases h with
  | decimal h hd => exact .decimal h hd
  | radix h hn => exact .radix h (Nat.lt_of_lt_of_le hn hle)

/-- Behind a radix mark, a plus sign is no part of a literal. -/
theorem not_literal_of_plus {cs : List Char} {n limit : Nat} (h : RadixLiteral ['+'] cs n) :
    ¬ Literal limit cs := by
  obtain ⟨hmark, -⟩ := h
  rw [List.append_assoc]
  rintro (⟨h, -⟩ | ⟨h, -⟩)
  · exact Numeral.not_decimalLiteral_of_radixMark hmark h
  · obtain ⟨rest, rfl, hdigits⟩ := (Numeral.radixLiteral_iff hmark).mp h
    exact absurd rfl (Numeral.ne_sign_of_digits hdigits '+' (by simp)).1

theorem literal_iff_of_radix {cs : List Char} {n limit : Nat} (h : RadixLiteral [] cs n) :
    Literal limit cs ↔ n < limit := by
  refine ⟨?_, .radix h⟩
  obtain ⟨hmark, h⟩ := h
  rintro (⟨h', -⟩ | ⟨h', hn⟩)
  · rw [List.append_assoc] at h'
    exact absurd h' (Numeral.not_decimalLiteral_of_radixMark hmark)
  · rw [List.append_assoc] at h'
    obtain ⟨rest, rfl, h'⟩ := (Numeral.radixLiteral_iff hmark).mp h'
    have heq := (Numeral.digits_iff.mp h).2.symm.trans (Numeral.digits_iff.mp h').2
    rwa [Option.some.inj heq]

/-! ## The two ways of a browser -/

/-- A number stands at the beginning of every literal; the zero of a radix mark is one. -/
theorem exists_decimal_of_literal {limit : Nat} {cs : List Char} (h : Literal limit cs) :
    ∃ start rest negative d, cs = start ++ rest ∧ DecimalLiteral start negative d := by
  cases h with
  | @decimal negative d h => exact ⟨cs, [], negative, d, (List.append_nil cs).symm, h⟩
  | radix h =>
    obtain @⟨mark, ds, radix, _, hmark, -⟩ := h
    have hzero : DecimalLiteral ['0'] false ⟨0, 0⟩ :=
      .mk .absent (.whole (.single ⟨by decide, .inl rfl⟩)) .absent
    have hmarks : ∀ m ∈ radixMarks, m.1 = '0' :: m.1.tail := by decide
    have hcons : mark = '0' :: mark.tail := hmarks _ hmark
    exact ⟨['0'], mark.tail ++ ds, false, _, by rw [hcons]; simp, hzero⟩

theorem ne_nil_of_decimalLiteral {cs : List Char} {negative : Bool} {d : Decimal}
    (h : DecimalLiteral cs negative d) : cs ≠ [] := by
  obtain ⟨-, hm, -⟩ := h
  obtain ⟨c, tail, rfl, -⟩ := Numeral.head_of_mantissa hm
  simp

/-- What a browser takes for a number in both ways is a finite literal between white space. -/
theorem isNumeric_iff {cs : List Char} : IsNumeric cs ↔ Literal overflow (trim cs) := by
  obtain ⟨after, hdrop, -⟩ := Text.exists_dropWhile_eq_trimmed isSpace cs
  constructor
  · rintro ⟨⟨start, rest, hstart, hnumber⟩, hempty | hliteral⟩
    · -- No number stands in white space alone.
      have hnil := Text.dropWhile_of_trimmed_eq_nil hempty
      obtain ⟨rfl, -⟩ := List.append_eq_nil_iff.mp (hstart.symm.trans hnil)
      rcases hnumber with ⟨negative, d, h⟩ | ⟨sign, negative, -, h⟩
      · exact absurd rfl (ne_nil_of_decimalLiteral h)
      · simp at h
    · exact hliteral
  · intro h
    refine ⟨?_, .inr h⟩
    obtain ⟨start, rest, negative, d, htrim, hdecimal⟩ := exists_decimal_of_literal h
    refine ⟨start, rest ++ after, ?_, .inl ⟨negative, d, hdecimal⟩⟩
    rw [hdrop, show Text.trimmed isSpace cs = start ++ rest from htrim, List.append_assoc]

/-! ## Agreement -/

variable {cs : List Char}

/-- The order mark is no blank, so it remains beside a text without it. -/
theorem orderMark_not_mem (h : ∀ c ∈ Text.strip cs, Numeral.isNumeralChar c = true) :
    '\uFEFF' ∉ cs :=
  fun hc => absurd (h _ (Text.mem_trimmed hc rfl)) (by decide)

/-- The next line is no white space in a browser, so it remains beside a text without it. -/
theorem nextLine_not_mem (h : ∀ c ∈ trim cs, Numeral.isNumeralChar c = true) : '\u0085' ∉ cs :=
  fun hc => absurd (h _ (Text.mem_trimmed hc rfl)) (by decide)

/-- What is taken for a number here: a literal whose digits behind a radix mark are below 2⁶⁴, and
may follow a plus sign there. -/
def IsNumeral (cs : List Char) : Prop :=
  Literal (2 ^ 64) cs ∨ ∃ n, RadixLiteral ['+'] cs n ∧ n < 2 ^ 64

theorem IsNumeral.isNumeralChar (h : IsNumeral cs) :
    ∀ c ∈ cs, Numeral.isNumeralChar c = true := by
  rcases h with h | ⟨n, h, -⟩
  · exact h.isNumeralChar
  · exact Numeral.isNumeralChar_of_radixLiteral (List.forall_mem_singleton.mpr rfl) h

/-- A text that both sides trim to a number is trimmed alike. -/
theorem strip_eq_trim_of_agree (h : IsNumeral (Text.strip cs)) (h' : Literal overflow (trim cs)) :
    Text.strip cs = trim cs :=
  strip_eq_trim (nextLine_not_mem h'.isNumeralChar) (orderMark_not_mem h.isNumeralChar)

theorem not_agree_of_disputed (h : Disputed cs) :
    ¬ (IsNumeral (Text.strip cs) ↔ Literal overflow (trim cs)) := by
  intro hagree
  cases h with
  | plus h hn =>
    have hnumeral : IsNumeral (Text.strip cs) := .inr ⟨_, h, hn⟩
    have hliteral := hagree.mp hnumeral
    rw [strip_eq_trim_of_agree hnumeral hliteral] at h
    exact not_literal_of_plus h hliteral
  | large h hn hlarge =>
    have hliteral : Literal overflow (trim cs) := .radix h hn
    have hnumeral := hagree.mpr hliteral
    rw [strip_eq_trim_of_agree hnumeral hliteral] at hnumeral
    rcases hnumeral with h' | ⟨n, h', -⟩
    · exact absurd ((literal_iff_of_radix h).mp h') (Nat.not_lt.mpr hlarge)
    · exact not_literal_of_plus h' hliteral
  | orderMark h hc => exact orderMark_not_mem (hagree.mpr h).isNumeralChar hc
  | nextLine h hc => exact nextLine_not_mem (hagree.mp (.inl h)).isNumeralChar hc

theorem agree_of_not_disputed (h : ¬ Disputed cs) :
    IsNumeral (Text.strip cs) ↔ Literal overflow (trim cs) := by
  constructor
  · rintro (hliteral | ⟨n, hplus, hn⟩)
    · have hline : '\u0085' ∉ cs := fun hc => h (.nextLine hliteral hc)
      rw [← strip_eq_trim hline (orderMark_not_mem hliteral.isNumeralChar)]
      exact hliteral.mono Binary64.two_pow_le_overflow
    · exact absurd (.plus hplus hn) h
  · intro hliteral
    have hmark : '\uFEFF' ∉ cs := fun hc => h (.orderMark hliteral hc)
    rw [strip_eq_trim (nextLine_not_mem hliteral.isNumeralChar) hmark]
    rcases hliteral with ⟨hdecimal, hd⟩ | ⟨hradix, hn⟩
    · exact .inl (.decimal hdecimal hd)
    · exact .inl (.radix hradix (Nat.lt_of_not_le fun hlarge => h (.large hradix hn hlarge)))

end Browser

namespace Value

theorem isNumeric_text_iff {s : String} :
    (text s).isNumeric = true ↔ Browser.IsNumeral (Text.strip s.toList) := by
  unfold isNumeric numeral?
  simp only [Option.isSome_map, Option.isSome_iff_exists, Numeral.read?_eq_some_iff]
  constructor
  · rintro ⟨x, ⟨negative, d, h, hd, rfl⟩ | ⟨n, h | h, hn, rfl⟩⟩
    · exact .inl (.decimal h hd)
    · exact .inl (.radix h hn)
    · exact .inr ⟨n, h, hn⟩
  · rintro ((⟨h, hd⟩ | ⟨h, hn⟩) | ⟨n, h, hn⟩)
    · exact ⟨_, .inl ⟨_, _, h, hd, rfl⟩⟩
    · exact ⟨_, .inr ⟨_, .inl h, hn, rfl⟩⟩
    · exact ⟨_, .inr ⟨n, .inr h, hn, rfl⟩⟩

/-- A text counts as a number exactly where it is one in a browser, unless it is disputed. -/
theorem agrees_browser_iff (s : String) :
    (Browser.IsNumeric s.toList ↔ Browser.Literal Binary64.overflow (Browser.trim s.toList)) ∧
      (((text s).isNumeric = true ↔ Browser.IsNumeric s.toList) ↔ ¬ Browser.Disputed s.toList) := by
  refine ⟨Browser.isNumeric_iff, ?_⟩
  rw [isNumeric_text_iff, Browser.isNumeric_iff]
  exact ⟨fun hagree h => Browser.not_agree_of_disputed h hagree, Browser.agree_of_not_disputed⟩

/-- The plus sign behind a radix mark is no part of a number in a browser. -/
theorem disagrees_browser_plus :
    (text "0x+1").isNumeric = true ∧ ¬ Browser.IsNumeric "0x+1".toList := by
  have hplus : RadixLiteral ['+'] ['0', 'x', '+', '1'] 1 :=
    .mk (show (['0', 'x'], 16) ∈ radixMarks by decide) (.single ⟨by decide, .inl rfl⟩)
  refine ⟨by decide +kernel, ?_⟩
  rw [Browser.isNumeric_iff]
  exact Browser.not_literal_of_plus hplus

end Value

end FilterSelect
