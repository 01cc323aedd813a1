import FilterSelect.Number.Decimal
import FilterSelect.Text.Blank

/-!
# Numerals

Which texts are numbers. Blanks at the ends do not count; what remains is

* a radix mark `0x`, `0o` or `0b`, in either letter case, and a whole number in that radix, below
  2⁶⁴ and possibly after a plus sign; or
* a decimal: an optional sign, digits with at most one point among them and at least one digit,
  and an optional exponent.

The number is the nearest one of the binary format, which has to be finite.
-/

namespace FilterSelect.Numeral

/-- The value of a digit in a radix up to 16. -/
def digit? (radix : Nat) (c : Char) : Option Nat :=
  let value :=
    if c.isDigit then c.toNat - '0'.toNat
    else if 'a' ≤ c && c ≤ 'f' then c.toNat - 'a'.toNat + 10
    else if 'A' ≤ c && c ≤ 'F' then c.toNat - 'A'.toNat + 10
    else radix
  if value < radix then some value else none

/-- The number that digits stand for, the highest first; none when one is no digit. -/
def number? (radix : Nat) (cs : List Char) : Option Nat :=
  cs.foldlM (fun n c => (digit? radix c).map (n * radix + ·)) 0

/-- The number that decimal digits stand for. -/
def decimalNumber (cs : List Char) : Nat := (number? 10 cs).getD 0

/-- An optional sign, and the rest. -/
def sign : List Char → Bool × List Char
  | '-' :: cs => (true, cs)
  | '+' :: cs => (false, cs)
  | cs => (false, cs)

/-- The radix that a text announces, and what follows the mark. -/
def radixMark? : List Char → Option (Nat × List Char)
  | '0' :: mark :: cs =>
    if mark = 'x' || mark = 'X' then some (16, cs)
    else if mark = 'o' || mark = 'O' then some (8, cs)
    else if mark = 'b' || mark = 'B' then some (2, cs)
    else none
  | _ => none

/-- A whole number below 2⁶⁴, possibly after a plus sign. -/
def word? (radix : Nat) (cs : List Char) : Option Nat :=
  let digits := match cs with
    | '+' :: rest => rest
    | _ => cs
  if digits.isEmpty then none else (number? radix digits).filter (· < Nat.pow 2 64)

/-- The exponent at the end of a decimal, zero when there is none. -/
def exponent? : List Char → Option Int
  | [] => some 0
  | mark :: cs =>
    let (negative, digits) := sign cs
    if (mark = 'e' || mark = 'E') && !digits.isEmpty && digits.all Char.isDigit then
      some (if negative then -decimalNumber digits else decimalNumber digits)
    else none

/-- A decimal with its sign. -/
def decimal? (cs : List Char) : Option (Bool × Decimal) :=
  let (negative, cs) := sign cs
  let whole := cs.takeWhile Char.isDigit
  let cs := cs.dropWhile Char.isDigit
  let (fraction, cs) := match cs with
    | '.' :: rest => (rest.takeWhile Char.isDigit, rest.dropWhile Char.isDigit)
    | _ => ([], cs)
  if whole.isEmpty && fraction.isEmpty then none
  else (exponent? cs).map fun e =>
    (negative, ⟨decimalNumber (whole ++ fraction), e - fraction.length⟩)

/-- The finite number that a text stands for. -/
def read? (text : String) : Option Binary64 :=
  let cs := Text.strip text.toList
  match radixMark? cs with
  | some (radix, digits) => (word? radix digits).map Binary64.ofNat
  | none =>
    ((decimal? cs).map fun (negative, d) => d.toBinary64 negative).filter Binary64.isFinite

end FilterSelect.Numeral
