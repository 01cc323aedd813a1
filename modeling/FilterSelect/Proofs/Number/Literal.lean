import FilterSelect.Proofs.Number.Plain
import FilterSelect.Proofs.Number.Rounding
import FilterSelect.Proofs.Text.Trim
import Mathlib.Data.List.Induction
import Mathlib.Tactic.SplitIfs

/-!
# The grammar of numerals

A numeral is a decimal or a whole number behind a radix mark. The grammar says so rule by rule, with
the number that each rule stands for; the reader takes what the grammar describes, and nothing else.

* `Digits`, `Mantissa`, `ExponentPart`, `DecimalLiteral`, `RadixLiteral`: the grammar.
* `Numeral.decimal?_eq_some_iff`: a decimal is read exactly where the grammar has one.
* `Numeral.read?_eq_some_iff`: the texts that are numerals, and their numbers.
-/

namespace FilterSelect

/-! ## The grammar -/

/-- The digits up to radix 16, with small letters. -/
def lowerDigits : List Char :=
  ['0', '1', '2', '3', '4', '5', '6', '7', '8', '9', 'a', 'b', 'c', 'd', 'e', 'f']

/-- The digits up to radix 16, with capital letters. -/
def upperDigits : List Char :=
  ['0', '1', '2', '3', '4', '5', '6', '7', '8', '9', 'A', 'B', 'C', 'D', 'E', 'F']

/-- The character stands for a digit of the radix, which is 16 at most. -/
def IsDigitOf (radix : Nat) (c : Char) (value : Nat) : Prop :=
  value < radix ∧ (lowerDigits[value]? = some c ∨ upperDigits[value]? = some c)

/-- One digit or more, the highest first, and the number that they stand for. -/
inductive Digits (radix : Nat) : List Char → Nat → Prop
  | single {c : Char} {value : Nat} (h : IsDigitOf radix c value) : Digits radix [c] value
  | append {cs : List Char} {n : Nat} {c : Char} {value : Nat} (hs : Digits radix cs n)
    (h : IsDigitOf radix c value) : Digits radix (cs ++ [c]) (n * radix + value)

/-- An optional sign, and whether it is a minus. -/
inductive Sign : List Char → Bool → Prop
  | absent : Sign [] false
  | plus : Sign ['+'] false
  | minus : Sign ['-'] true

/-- Digits with at most one point among them and at least one digit. -/
inductive Mantissa : List Char → Decimal → Prop
  | whole {ds : List Char} {n : Nat} (h : Digits 10 ds n) : Mantissa ds ⟨n, 0⟩
  | point {ds fs : List Char} {n : Nat} (h : Digits 10 (ds ++ fs) n) :
    Mantissa (ds ++ '.' :: fs) ⟨n, -fs.length⟩

/-- An optional exponent: its mark, an optional sign, and digits. -/
inductive ExponentPart : List Char → Int → Prop
  | absent : ExponentPart [] 0
  | present {mark : Char} {sign ds : List Char} {negative : Bool} {n : Nat}
    (hmark : mark ∈ ['e', 'E']) (hsign : Sign sign negative) (h : Digits 10 ds n) :
    ExponentPart (mark :: (sign ++ ds)) (if negative then -n else n)

/-- An optional sign, a mantissa and an optional exponent. -/
inductive DecimalLiteral : List Char → Bool → Decimal → Prop
  | mk {sign ms es : List Char} {negative : Bool} {d : Decimal} {e : Int}
    (hsign : Sign sign negative) (hm : Mantissa ms d) (he : ExponentPart es e) :
    DecimalLiteral (sign ++ ms ++ es) negative ⟨d.digits, d.exponent + e⟩

/-- The marks in front of a whole number, and the radix that each announces. -/
def radixMarks : List (List Char × Nat) :=
  [(['0', 'x'], 16), (['0', 'X'], 16), (['0', 'o'], 8), (['0', 'O'], 8), (['0', 'b'], 2),
    (['0', 'B'], 2)]

/-- A radix mark, what stands for a sign, and digits of that radix. -/
inductive RadixLiteral (sign : List Char) : List Char → Nat → Prop
  | mk {mark ds : List Char} {radix n : Nat} (hmark : (mark, radix) ∈ radixMarks)
    (h : Digits radix ds n) : RadixLiteral sign (mark ++ sign ++ ds) n

namespace Numeral

/-! ## Digits -/

theorem char_le_iff {a b : Char} : a ≤ b ↔ a.toNat ≤ b.toNat := Iff.rfl

/-- The radix only bounds the digits. -/
theorem digit?_eq_filter (radix : Nat) (c : Char) :
    digit? radix c = (digit? 16 c).filter (· < radix) := by
  unfold digit?
  simp only [Char.isDigit_iff_toNat, Bool.and_eq_true, decide_eq_true_eq, char_le_iff,
    Char.reduceToNat]
  split
  · rw [if_pos (show c.toNat - 48 < 16 by omega), Option.filter_some]
    simp
  · split
    · rw [if_pos (show c.toNat - 97 + 10 < 16 by omega), Option.filter_some]
      simp
    · split
      · rw [if_pos (show c.toNat - 65 + 10 < 16 by omega), Option.filter_some]
        simp
      · simp

theorem toNat_lt_of_digit? {c : Char} {value : Nat} (h : digit? 16 c = some value) :
    value < 16 ∧ c.toNat < 128 := by
  unfold digit? at h
  simp only [Char.isDigit_iff_toNat, Bool.and_eq_true, decide_eq_true_eq, char_le_iff,
    Char.reduceToNat, Option.ite_none_right_eq_some, Option.some.injEq] at h
  split at h
  · omega
  · split at h
    · omega
    · split at h <;> omega

theorem digit?_eq_some_iff {radix : Nat} {c : Char} {value : Nat} :
    digit? radix c = some value ↔ IsDigitOf radix c value := by
  -- Both directions are read off the tables, the second one character code by code.
  have hread : ∀ i : Fin 16, digit? 16 (lowerDigits[i]) = some i.val ∧
      digit? 16 (upperDigits[i]) = some i.val := by decide
  have hwrite : ∀ code < 128, ∀ i : Fin 16, digit? 16 (Char.ofNat code) = some i.val →
      lowerDigits[i] = Char.ofNat code ∨ upperDigits[i] = Char.ofNat code := by decide +kernel
  rw [digit?_eq_filter, Option.filter_eq_some_iff, decide_eq_true_eq, and_comm]
  refine and_congr_right fun _ => ⟨fun h => ?_, fun h => ?_⟩
  · obtain ⟨hvalue, hcode⟩ := toNat_lt_of_digit? h
    have htable := hwrite c.toNat hcode ⟨value, hvalue⟩ (by rwa [Char.ofNat_toNat])
    rw [Char.ofNat_toNat] at htable
    simpa [List.getElem?_eq_some_iff, show value < lowerDigits.length from hvalue,
      show value < upperDigits.length from hvalue] using htable
  · rcases h with h | h
    · obtain ⟨hvalue, rfl⟩ := List.getElem?_eq_some_iff.mp h
      exact (hread ⟨value, hvalue⟩).1
    · obtain ⟨hvalue, rfl⟩ := List.getElem?_eq_some_iff.mp h
      exact (hread ⟨value, hvalue⟩).2

theorem digits_iff {radix : Nat} {cs : List Char} {n : Nat} :
    Digits radix cs n ↔ cs ≠ [] ∧ number? radix cs = some n := by
  have hsnoc (cs : List Char) (c : Char) : number? radix (cs ++ [c]) =
      (number? radix cs).bind fun n => (digit? radix c).map (n * radix + ·) := by
    unfold number?
    rw [List.foldlM_append]
    simp
  constructor
  · intro h
    induction h with
    | single h =>
      refine ⟨List.cons_ne_nil _ _, ?_⟩
      simp [number?, digit?_eq_some_iff.mpr h]
    | append _ h ih =>
      refine ⟨by simp, ?_⟩
      rw [hsnoc, ih.2]
      simp [digit?_eq_some_iff.mpr h]
  · induction cs using List.reverseRecOn generalizing n with
    | nil => exact fun h => absurd rfl h.1
    | append_singleton cs c ih =>
      rintro ⟨-, h⟩
      rw [hsnoc] at h
      obtain ⟨m, hm, h⟩ := Option.bind_eq_some_iff.mp h
      obtain ⟨value, hvalue, rfl⟩ := Option.map_eq_some_iff.mp h
      have hdigit := digit?_eq_some_iff.mp hvalue
      cases cs with
      | nil =>
        cases hm
        simpa using Digits.single hdigit
      | cons d ds => exact .append (ih ⟨List.cons_ne_nil _ _, hm⟩) hdigit

/-! ## Decimal digits -/

theorem digit?_ten (c : Char) : digit? 10 c = if c.isDigit then some (c.toNat - 48) else none := by
  unfold digit?
  simp only [Char.isDigit_iff_toNat, Char.reduceToNat]
  split
  · rw [if_pos (by omega)]
  · split
    · rw [if_neg (by omega)]
    · split
      · rw [if_neg (by omega)]
      · rfl

theorem number?_ten_eq_some_iff {cs : List Char} {n : Nat} :
    number? 10 cs = some n ↔ (∀ c ∈ cs, c.isDigit = true) ∧ Nat.ofDigitChars 10 cs 0 = n := by
  unfold number?
  generalize 0 = start
  induction cs generalizing start with
  | nil => simp
  | cons c cs ih =>
    rw [List.foldlM_cons, digit?_ten, Nat.ofDigitChars_cons]
    by_cases hc : c.isDigit = true
    · simp [hc, ih, Nat.mul_comm start]
    · simp [hc]

/-- Decimal digits are what the character class says. -/
theorem digits_ten_iff {cs : List Char} {n : Nat} :
    Digits 10 cs n ↔ AreDigits cs ∧ Nat.ofDigitChars 10 cs 0 = n := by
  rw [digits_iff, number?_ten_eq_some_iff, ← and_assoc]
  rfl

theorem digits_decimalNumber {cs : List Char} (h : AreDigits cs) :
    Digits 10 cs (decimalNumber cs) := by
  have hnumber : number? 10 cs = some (Nat.ofDigitChars 10 cs 0) :=
    number?_ten_eq_some_iff.mpr ⟨h.2, rfl⟩
  rw [digits_ten_iff, decimalNumber, hnumber]
  exact ⟨h, rfl⟩

theorem decimalNumber_of_digits {cs : List Char} {n : Nat} (h : Digits 10 cs n) :
    decimalNumber cs = n := by
  rw [decimalNumber, (digits_iff.mp h).2]
  rfl

/-! ## Signs -/

theorem exists_of_sign {cs rest : List Char} {negative : Bool} (h : sign cs = (negative, rest)) :
    ∃ s, cs = s ++ rest ∧ Sign s negative := by
  unfold sign at h
  split at h
  · cases h
    exact ⟨_, rfl, .minus⟩
  · cases h
    exact ⟨_, rfl, .plus⟩
  · cases h
    exact ⟨[], rfl, .absent⟩

theorem sign_append {s : List Char} {negative : Bool} (h : Sign s negative) {cs : List Char}
    (hcs : ∀ c ∈ cs.head?, c ≠ '+' ∧ c ≠ '-') : sign (s ++ cs) = (negative, cs) := by
  cases h with
  | plus => rfl
  | minus => rfl
  | absent =>
    rw [List.nil_append]
    unfold sign
    split
    · exact absurd rfl (hcs '-' (by simp)).2
    · exact absurd rfl (hcs '+' (by simp)).1
    · rfl

theorem isSome_digit?_of_digits {radix : Nat} {cs : List Char} {n : Nat} (h : Digits radix cs n) :
    ∀ c ∈ cs, (digit? 16 c).isSome := by
  have hdigit {c : Char} {value : Nat} (h : IsDigitOf radix c value) : (digit? 16 c).isSome := by
    have hfilter := digit?_eq_some_iff.mpr h
    rw [digit?_eq_filter, Option.filter_eq_some_iff] at hfilter
    simp [hfilter.1]
  induction h with
  | single h => simpa using hdigit h
  | append _ h ih =>
    intro c hc
    rcases List.mem_append.mp hc with hc | hc
    · exact ih c hc
    · rw [List.mem_singleton.mp hc]
      exact hdigit h

theorem ne_sign_of_digits {radix : Nat} {cs : List Char} {n : Nat} (h : Digits radix cs n) :
    ∀ c ∈ cs, c ≠ '+' ∧ c ≠ '-' := by
  intro c hc
  have hsome := isSome_digit?_of_digits h c hc
  constructor <;> rintro rfl <;> cases hsome

/-! ## Exponents -/

theorem exponent?_eq_some_iff {cs : List Char} {e : Int} :
    exponent? cs = some e ↔ ExponentPart cs e := by
  constructor
  · intro h
    cases cs with
    | nil =>
      cases h
      exact .absent
    | cons mark cs =>
      obtain ⟨⟨negative, digits⟩, hcs⟩ : ∃ signed, sign cs = signed := ⟨_, rfl⟩
      obtain ⟨s, rfl, hsign⟩ := exists_of_sign hcs
      unfold exponent? at h
      simp only [hcs, Bool.and_eq_true, Bool.or_eq_true, decide_eq_true_eq, List.all_eq_true,
        Option.ite_none_right_eq_some, Option.some.injEq] at h
      obtain ⟨⟨⟨hmark, hne⟩, hdigits⟩, rfl⟩ := h
      exact .present (by simpa using hmark) hsign
        (digits_decimalNumber ⟨by simpa using hne, hdigits⟩)
  · intro h
    cases h with
    | absent => rfl
    | present hmark hsign h =>
      have hare := (digits_ten_iff.mp h).1
      have hds := sign_append hsign fun c hc => ne_sign_of_digits h c (List.mem_of_mem_head? hc)
      unfold exponent?
      simp only [hds, decimalNumber_of_digits h]
      rw [if_pos]
      simp only [Bool.and_eq_true, Bool.or_eq_true, decide_eq_true_eq, List.all_eq_true]
      exact ⟨⟨by simpa using hmark, by simpa using hare.1⟩, hare.2⟩

/-! ## Decimals -/

/-- The digits behind a point, and the rest. -/
def fraction : List Char → List Char × List Char
  | '.' :: rest => (rest.takeWhile Char.isDigit, rest.dropWhile Char.isDigit)
  | rest => ([], rest)

/-- A decimal without its sign. -/
def unsigned? (cs : List Char) : Option Decimal :=
  let whole := cs.takeWhile Char.isDigit
  let (fraction, rest) := fraction (cs.dropWhile Char.isDigit)
  if whole.isEmpty && fraction.isEmpty then none
  else (exponent? rest).map fun e => ⟨decimalNumber (whole ++ fraction), e - fraction.length⟩

theorem fraction_of_ne {rest : List Char} (h : ∀ cs, rest ≠ '.' :: cs) :
    fraction rest = ([], rest) := by
  unfold fraction
  split
  · exact absurd rfl (h _)
  · rfl

theorem decimal?_eq_unsigned? (cs : List Char) :
    decimal? cs = (unsigned? (sign cs).2).map fun d => ((sign cs).1, d) := by
  unfold decimal? unsigned?
  generalize sign cs = signed
  obtain ⟨negative, cs⟩ := signed
  simp only []
  generalize cs.takeWhile Char.isDigit = whole
  generalize cs.dropWhile Char.isDigit = rest
  split
  · simp only [fraction, apply_ite (Option.map _), Option.map_none, Option.map_map]
    rfl
  · rename_i hne
    rw [fraction_of_ne fun cs h => hne cs h]
    simp only [apply_ite (Option.map _), Option.map_none, Option.map_map]
    rfl

/-- What follows the mantissa neither goes on with digits nor starts with a point. -/
theorem head_of_exponentPart {cs : List Char} {e : Int} (h : ExponentPart cs e) :
    ∀ c ∈ cs.head?, c.isDigit = false ∧ c ≠ '.' := by
  cases h with
  | absent => simp
  | present hmark =>
    rcases (by simpa using hmark : _ = 'e' ∨ _ = 'E') with rfl | rfl <;> simp

theorem unsigned?_append {ms es : List Char} {m : Decimal} {e : Int} (hm : Mantissa ms m)
    (he : ExponentPart es e) : unsigned? (ms ++ es) = some ⟨m.digits, m.exponent + e⟩ := by
  have hhead := head_of_exponentPart he
  have hexp := exponent?_eq_some_iff.mpr he
  have hes : ∀ cs, es ≠ '.' :: cs := by
    rintro cs rfl
    exact (hhead '.' rfl).2 rfl
  cases hm with
  | whole h =>
    have hds := (digits_ten_iff.mp h).1
    unfold unsigned?
    rw [takeWhile_append_eq hds.2 fun c hc => (hhead c hc).1,
      dropWhile_append_eq hds.2 fun c hc => (hhead c hc).1, fraction_of_ne hes]
    simp [hds.1, hexp, decimalNumber_of_digits h]
  | @point ds fs n h =>
    have hall := (digits_ten_iff.mp h).1
    have hds : ∀ c ∈ ds, c.isDigit = true := fun c hc => hall.2 c (List.mem_append_left _ hc)
    have hfs : ∀ c ∈ fs, c.isDigit = true := fun c hc => hall.2 c (List.mem_append_right _ hc)
    have hdot : ∀ c ∈ ('.' :: (fs ++ es)).head?, c.isDigit = false := by simp
    have hne : ¬ (ds = [] ∧ fs = []) := by
      rintro ⟨rfl, rfl⟩
      exact hall.1 rfl
    unfold unsigned?
    rw [List.append_assoc, List.cons_append, takeWhile_append_eq hds hdot,
      dropWhile_append_eq hds hdot]
    unfold fraction
    simp only [takeWhile_append_eq hfs fun c hc => (hhead c hc).1,
      dropWhile_append_eq hfs fun c hc => (hhead c hc).1, decimalNumber_of_digits h, hexp]
    rw [if_neg (by simpa using hne), Option.map_some, Int.sub_eq_add_neg, Int.add_comm]

theorem exists_of_unsigned? {cs : List Char} {d : Decimal} (h : unsigned? cs = some d) :
    ∃ ms es m e, cs = ms ++ es ∧ Mantissa ms m ∧ ExponentPart es e ∧
      d = ⟨m.digits, m.exponent + e⟩ := by
  have hcs := List.takeWhile_append_dropWhile (p := Char.isDigit) (l := cs)
  have hwhole : ∀ c ∈ cs.takeWhile Char.isDigit, c.isDigit = true := fun c hc =>
    List.mem_takeWhile_imp hc
  unfold unsigned? at h
  generalize cs.takeWhile Char.isDigit = whole at h hcs hwhole
  generalize cs.dropWhile Char.isDigit = rest at h hcs
  by_cases hdot : ∃ tail, rest = '.' :: tail
  · obtain ⟨tail, rfl⟩ := hdot
    have htail := List.takeWhile_append_dropWhile (p := Char.isDigit) (l := tail)
    have hfraction : ∀ c ∈ tail.takeWhile Char.isDigit, c.isDigit = true := fun c hc =>
      List.mem_takeWhile_imp hc
    simp only [fraction] at h
    generalize tail.takeWhile Char.isDigit = fs at h htail hfraction
    generalize tail.dropWhile Char.isDigit = es at h htail
    split at h
    · cases h
    · rename_i hne
      obtain ⟨e, he, rfl⟩ := Option.map_eq_some_iff.mp h
      have hds : AreDigits (whole ++ fs) := by
        refine ⟨by simpa using hne, fun c hc => ?_⟩
        exact (List.mem_append.mp hc).elim (hwhole c) (hfraction c)
      refine ⟨whole ++ '.' :: fs, es, _, e, ?_, .point (digits_decimalNumber hds),
        exponent?_eq_some_iff.mp he, ?_⟩
      · rw [← hcs, ← htail, List.append_assoc, List.cons_append]
      · rw [Int.sub_eq_add_neg, Int.add_comm]
  · rw [fraction_of_ne fun tail heq => hdot ⟨tail, heq⟩] at h
    simp only [] at h
    split at h
    · cases h
    · rename_i hne
      obtain ⟨e, he, rfl⟩ := Option.map_eq_some_iff.mp h
      have hds : AreDigits whole := ⟨by simpa using hne, hwhole⟩
      refine ⟨whole, rest, _, e, hcs.symm, .whole (digits_decimalNumber hds),
        exponent?_eq_some_iff.mp he, ?_⟩
      simp

theorem head_of_mantissa {cs : List Char} {d : Decimal} (h : Mantissa cs d) :
    ∃ c tail, cs = c :: tail ∧ (c.isDigit = true ∨ c = '.') := by
  have hdigits {ds : List Char} {n : Nat} (h : Digits 10 ds n) :
      ∃ c tail, ds = c :: tail ∧ c.isDigit = true := by
    obtain ⟨c, tail, rfl⟩ := List.exists_cons_of_ne_nil (digits_ten_iff.mp h).1.1
    exact ⟨c, tail, rfl, (digits_ten_iff.mp h).1.2 c List.mem_cons_self⟩
  cases h with
  | whole h =>
    obtain ⟨c, tail, rfl, hc⟩ := hdigits h
    exact ⟨c, tail, rfl, .inl hc⟩
  | @point ds fs n h =>
    cases ds with
    | nil => exact ⟨'.', fs, rfl, .inr rfl⟩
    | cons c ds =>
      exact ⟨c, _, rfl, .inl ((digits_ten_iff.mp h).1.2 c List.mem_cons_self)⟩

/-- The reader takes the decimals of the grammar, and finds what each stands for. -/
theorem decimal?_eq_some_iff {cs : List Char} {negative : Bool} {d : Decimal} :
    decimal? cs = some (negative, d) ↔ DecimalLiteral cs negative d := by
  rw [decimal?_eq_unsigned?]
  constructor
  · intro h
    obtain ⟨u, hu, heq⟩ := Option.map_eq_some_iff.mp h
    obtain ⟨⟨minus, rest⟩, hcs⟩ : ∃ signed, sign cs = signed := ⟨_, rfl⟩
    obtain ⟨s, rfl, hsign⟩ := exists_of_sign hcs
    rw [hcs] at hu heq
    cases heq
    obtain ⟨ms, es, m, e, rfl, hm, he, rfl⟩ := exists_of_unsigned? hu
    rw [← List.append_assoc]
    exact .mk hsign hm he
  · rintro ⟨hsign, hm, he⟩
    obtain ⟨c, tail, rfl, hc⟩ := head_of_mantissa hm
    have hne : c ≠ '+' ∧ c ≠ '-' := by
      constructor <;> rintro rfl <;> simp at hc
    rw [List.append_assoc, sign_append hsign (by simpa using hne), unsigned?_append hm he]
    rfl

/-! ## Whole numbers behind a radix mark -/

theorem radixMark?_eq_some_iff {cs ds : List Char} {radix : Nat} :
    radixMark? cs = some (radix, ds) ↔ ∃ mark, (mark, radix) ∈ radixMarks ∧ cs = mark ++ ds := by
  constructor
  · intro h
    unfold radixMark? at h
    simp only [Bool.or_eq_true, decide_eq_true_eq] at h
    split at h
    · rename_i mark _
      refine ⟨['0', mark], ?_, ?_⟩ <;>
        split_ifs at h with hmark hmark hmark <;> cases h
      · rcases hmark with rfl | rfl <;> simp [radixMarks]
      · rcases hmark with rfl | rfl <;> simp [radixMarks]
      · rcases hmark with rfl | rfl <;> simp [radixMarks]
      all_goals rfl
    · cases h
  · rintro ⟨mark, hmark, rfl⟩
    simp only [radixMarks, List.mem_cons, Prod.mk.injEq, List.not_mem_nil, or_false] at hmark
    rcases hmark with ⟨rfl, rfl⟩ | ⟨rfl, rfl⟩ | ⟨rfl, rfl⟩ | ⟨rfl, rfl⟩ | ⟨rfl, rfl⟩ | ⟨rfl, rfl⟩ <;>
      rfl

theorem word?_eq_some_iff {radix : Nat} {cs : List Char} {n : Nat} :
    word? radix cs = some n ↔
      n < 2 ^ 64 ∧ (Digits radix cs n ∨ ∃ ds, cs = '+' :: ds ∧ Digits radix ds n) := by
  have hdigits (ds : List Char) : (if ds.isEmpty then none
      else (number? radix ds).filter (· < Nat.pow 2 64)) = some n ↔
        n < 2 ^ 64 ∧ Digits radix ds n := by
    rw [digits_iff]
    cases ds with
    | nil => simp
    | cons c ds => simp [Option.filter_eq_some_iff, and_comm]
  unfold word?
  simp only []
  split
  · rename_i ds
    rw [hdigits]
    refine and_congr_right fun _ => ⟨fun h => .inr ⟨ds, rfl, h⟩, ?_⟩
    rintro (h | ⟨_, heq, h⟩)
    · exact absurd rfl (ne_sign_of_digits h '+' List.mem_cons_self).1
    · cases heq
      exact h
  · rename_i hne
    rw [hdigits]
    refine and_congr_right fun _ => ⟨.inl, ?_⟩
    rintro (h | ⟨ds, rfl, -⟩)
    · exact h
    · exact absurd rfl (hne ds)

/-- No decimal starts with a radix mark. -/
theorem not_decimalLiteral_of_radixMark {mark ds : List Char} {radix : Nat} {negative : Bool}
    {d : Decimal} (hmark : (mark, radix) ∈ radixMarks) :
    ¬ DecimalLiteral (mark ++ ds) negative d := by
  have hnone : decimal? (mark ++ ds) = none := by
    simp only [radixMarks, List.mem_cons, Prod.mk.injEq, List.not_mem_nil, or_false] at hmark
    rcases hmark with ⟨rfl, -⟩ | ⟨rfl, -⟩ | ⟨rfl, -⟩ | ⟨rfl, -⟩ | ⟨rfl, -⟩ | ⟨rfl, -⟩ <;>
      simp [decimal?, sign, exponent?]
  intro h
  rw [decimal?_eq_some_iff.mpr h] at hnone
  cases hnone

/-- A mark tells the radix, so what follows it is all that has to be read. -/
theorem radixLiteral_iff {sign mark ds : List Char} {radix n : Nat}
    (hmark : (mark, radix) ∈ radixMarks) :
    RadixLiteral sign (mark ++ ds) n ↔ ∃ rest, ds = sign ++ rest ∧ Digits radix rest n := by
  constructor
  · intro h
    have hread : radixMark? (mark ++ ds) = some (radix, ds) :=
      radixMark?_eq_some_iff.mpr ⟨mark, hmark, rfl⟩
    generalize mark ++ ds = cs at h hread
    cases h with
    | mk hmark' h =>
      rw [List.append_assoc, radixMark?_eq_some_iff.mpr ⟨_, hmark', rfl⟩] at hread
      cases hread
      exact ⟨_, rfl, h⟩
  · rintro ⟨rest, rfl, h⟩
    rw [← List.append_assoc]
    exact .mk hmark h

/-! ## Numerals -/

/-- The texts that are numerals, and their numbers. -/
theorem read?_eq_some_iff {text : String} {x : Binary64} :
    read? text = some x ↔
      (∃ negative d, DecimalLiteral (Text.strip text.toList) negative d ∧
        d.ratio.1 < Binary64.overflow * d.ratio.2 ∧ x = d.toBinary64 negative) ∨
      ∃ n, (RadixLiteral [] (Text.strip text.toList) n ∨
        RadixLiteral ['+'] (Text.strip text.toList) n) ∧ n < 2 ^ 64 ∧ x = .ofNat n := by
  unfold read?
  simp only []
  generalize Text.strip text.toList = cs
  split
  · rename_i radix ds hcs
    obtain ⟨mark, hmark, rfl⟩ := radixMark?_eq_some_iff.mp hcs
    simp only [not_decimalLiteral_of_radixMark hmark, false_and, exists_false, false_or,
      radixLiteral_iff hmark, Option.map_eq_some_iff, word?_eq_some_iff, List.nil_append,
      exists_eq_left', List.singleton_append]
    refine exists_congr fun n => ⟨?_, ?_⟩
    · rintro ⟨⟨hn, h⟩, rfl⟩
      exact ⟨h, hn, rfl⟩
    · rintro ⟨h, hn, rfl⟩
      exact ⟨⟨hn, h⟩, rfl⟩
  · rename_i hcs
    have hradix {sign : List Char} {n : Nat} : ¬ RadixLiteral sign cs n := by
      rintro ⟨hmark, h⟩
      rw [List.append_assoc, radixMark?_eq_some_iff.mpr ⟨_, hmark, rfl⟩] at hcs
      cases hcs
    simp only [hradix, or_self, false_and, exists_false, or_false, Option.filter_eq_some_iff,
      Option.map_eq_some_iff, Prod.exists, decimal?_eq_some_iff]
    constructor
    · rintro ⟨⟨negative, d, h, rfl⟩, hfinite⟩
      exact ⟨negative, d, h, Decimal.isFinite_toBinary64_iff.mp hfinite, rfl⟩
    · rintro ⟨negative, d, h, hfinite, rfl⟩
      exact ⟨⟨negative, d, h, rfl⟩, Decimal.isFinite_toBinary64_iff.mpr hfinite⟩

/-! ## Characters of numerals -/

/-- Whether the character is a digit up to radix 16, a sign, the point, or in a radix mark. -/
def isNumeralChar (c : Char) : Bool :=
  (digit? 16 c).isSome || c ∈ ['+', '-', '.', 'x', 'X', 'o', 'O']

theorem isNumeralChar_of_digits {radix : Nat} {cs : List Char} {n : Nat} (h : Digits radix cs n) :
    ∀ c ∈ cs, isNumeralChar c = true := fun c hc =>
  Bool.or_eq_true_iff.mpr (.inl (isSome_digit?_of_digits h c hc))

theorem isNumeralChar_of_sign {cs : List Char} {negative : Bool} (h : Sign cs negative) :
    ∀ c ∈ cs, isNumeralChar c = true := by
  cases h with
  | absent => simp
  | plus => exact List.forall_mem_singleton.mpr rfl
  | minus => exact List.forall_mem_singleton.mpr rfl

theorem isNumeralChar_of_mantissa {cs : List Char} {d : Decimal} (h : Mantissa cs d) :
    ∀ c ∈ cs, isNumeralChar c = true := by
  cases h with
  | whole h => exact isNumeralChar_of_digits h
  | point h =>
    have hdigits := List.forall_mem_append.mp (isNumeralChar_of_digits h)
    exact List.forall_mem_append.mpr ⟨hdigits.1, List.forall_mem_cons.mpr ⟨rfl, hdigits.2⟩⟩

theorem isNumeralChar_of_exponentPart {cs : List Char} {e : Int} (h : ExponentPart cs e) :
    ∀ c ∈ cs, isNumeralChar c = true := by
  cases h with
  | absent => simp
  | present hmark hsign h =>
    refine List.forall_mem_cons.mpr ⟨?_, List.forall_mem_append.mpr
      ⟨isNumeralChar_of_sign hsign, isNumeralChar_of_digits h⟩⟩
    rcases (by simpa using hmark : _ = 'e' ∨ _ = 'E') with rfl | rfl <;> rfl

theorem isNumeralChar_of_decimalLiteral {cs : List Char} {negative : Bool} {d : Decimal}
    (h : DecimalLiteral cs negative d) : ∀ c ∈ cs, isNumeralChar c = true := by
  obtain ⟨hsign, hm, he⟩ := h
  exact List.forall_mem_append.mpr ⟨List.forall_mem_append.mpr
    ⟨isNumeralChar_of_sign hsign, isNumeralChar_of_mantissa hm⟩, isNumeralChar_of_exponentPart he⟩

theorem isNumeralChar_of_radixLiteral {sign cs : List Char} {n : Nat}
    (hsign : ∀ c ∈ sign, isNumeralChar c = true) (h : RadixLiteral sign cs n) :
    ∀ c ∈ cs, isNumeralChar c = true := by
  obtain ⟨hmark, h⟩ := h
  have hmarks : radixMarks.all (fun m => m.1.all isNumeralChar) = true := by decide
  exact List.forall_mem_append.mpr ⟨List.forall_mem_append.mpr
    ⟨List.all_eq_true.mp (List.all_eq_true.mp hmarks _ hmark), hsign⟩, isNumeralChar_of_digits h⟩

/-- A text that is a numeral has no other characters between its blanks. -/
theorem isNumeralChar_of_read? {text : String} {x : Binary64} (h : read? text = some x) :
    ∀ c ∈ Text.strip text.toList, isNumeralChar c = true := by
  rcases read?_eq_some_iff.mp h with ⟨negative, d, h, -⟩ | ⟨n, h | h, -⟩
  · exact isNumeralChar_of_decimalLiteral h
  · exact isNumeralChar_of_radixLiteral (by simp) h
  · exact isNumeralChar_of_radixLiteral (List.forall_mem_singleton.mpr rfl) h

end Numeral

end FilterSelect
