import FilterSelect.Number.Binary64

/-!
# Decimals

A decimal is a natural number of units of a power of ten. It is read into the nearest number of
the binary format, and a number of the binary format is written by its shortest decimal.

* `Decimal.toBinary64`: the nearest binary number.
* `Decimal.shortest`: of the decimals that read back as the number, those with the fewest digits,
  and of them the nearest. Of two equally near, a format chooses.
* `Decimal.positional`: the plain notation, without an exponent.
-/

namespace FilterSelect

/-- `digits` units of the power of ten with the given exponent. -/
structure Decimal where
  digits : Nat
  exponent : Int
  deriving DecidableEq, Repr

namespace Decimal

/-! ## Reading -/

/-- The decimal as a quotient of two natural numbers. -/
def ratio (d : Decimal) : Nat × Nat :=
  match d.exponent with
  | .ofNat e => (d.digits * Nat.pow 10 e, 1)
  | .negSucc e => (d.digits, Nat.pow 10 (e + 1))

/-- Whether the decimal lies above every finite number, by its exponent alone. -/
def isHuge (d : Decimal) : Bool := d.digits ≠ 0 && 400 < d.exponent

/-- Whether the decimal lies so far below one quantum that it rounds to zero: a power of ten is
larger than the same power of eight. -/
def isTiny (d : Decimal) : Bool := d.digits = 0 || d.digits.log2 + quantumBits + 2 < -3 * d.exponent

/-- The binary number nearest to the decimal, of the given sign. -/
def toBinary64 (negative : Bool) (d : Decimal) : Binary64 :=
  if d.isHuge then .infinite negative
  else if d.isTiny then .zero negative
  else .ofRatio negative d.ratio.1 d.ratio.2

/-! ## Writing -/

/-- The digits of a natural number in base ten. -/
def digitText (n : Nat) : List Char := Nat.toDigits 10 n

/-- The same decimal with no zero at the end of its digits. -/
def normalize (d : Decimal) : Decimal :=
  if d.digits = 0 then ⟨0, 0⟩
  else if d.digits % 10 = 0 then normalize ⟨d.digits / 10, d.exponent + 1⟩
  else d
termination_by d.digits
decreasing_by exact Nat.div_lt_self (Nat.pos_of_ne_zero ‹_›) (by decide)

/-- How far down the positions of digits are counted. -/
private def positions : Nat := 400

/-- The least exponent of a power of ten above a positive number of quanta. -/
def magnitude (quanta : Nat) : Int :=
  (digitText (quanta * Nat.pow 10 positions / quantaOfOne)).length - positions

/-- Whether the decimal reads back as the number worth so many quanta. -/
def reads (quanta : Nat) (d : Decimal) : Bool := d.toBinary64 false = .ofQuanta false quanta

/-- Which of two equally near decimals a format takes. -/
inductive Tie
  /-- The larger one. -/
  | up
  /-- The one whose last digit is even. -/
  | even
  deriving DecidableEq, Repr

/-- Whether the decimal below a number comes before the one above it: it is nearer, or wins the
tie. The number is `num / den` units. -/
def belowFirst (tie : Tie) (num den : Nat) : Bool :=
  if 2 * (num % den) = den then tie = .even && num / den % 2 = 0 else 2 * (num % den) < den

/-- Of the two neighbours of a number on the grid of the given exponent, the nearer of those that
read back. -/
def neighbour? (tie : Tie) (quanta : Nat) (exponent : Int) : Option Decimal :=
  let (num, den) : Nat × Nat :=
    match exponent with
    | .ofNat e => (quanta, quantaOfOne * Nat.pow 10 e)
    | .negSucc e => (quanta * Nat.pow 10 (e + 1), quantaOfOne)
  let below : Decimal := ⟨num / den, exponent⟩
  let above : Decimal := ⟨num / den + 1, exponent⟩
  let nearerFirst := if belowFirst tie num den then [below, above] else [above, below]
  nearerFirst.find? (reads quanta)

/-- All the digits of a number of quanta. -/
def exact (quanta : Nat) : Decimal := ⟨quanta * Nat.pow 5 quantumBits, -quantumBits⟩

/-- The shortest decimal that reads back as the number worth so many quanta. Grids with one to 17
digits are tried in turn; 17 always suffice, and the number's own digits stand behind them. -/
def shortest (tie : Tie) (quanta : Nat) : Decimal :=
  if quanta = 0 then ⟨0, 0⟩ else
  let top := magnitude quanta
  let found := (List.range 17).findSome? fun further : Nat =>
    neighbour? tie quanta (top - 1 - further)
  normalize (found.getD (exact quanta))

/-- The plain notation: digits, and a point before those below one. -/
def positional (d : Decimal) : List Char :=
  let digits := digitText d.digits
  match d.exponent with
  | .ofNat e => digits ++ List.replicate e '0'
  | .negSucc e =>
    let places := e + 1
    if places < digits.length then
      digits.take (digits.length - places) ++ '.' :: digits.drop (digits.length - places)
    else ['0', '.'] ++ List.replicate (places - digits.length) '0' ++ digits

end Decimal

namespace Binary64

/-- The number in plain notation with the fewest digits that read back, of two equally near the
larger; both zeros are `0`. -/
def text : Binary64 → String
  | .nan => "NaN"
  | .infinite negative => if negative then "-inf" else "inf"
  | .finite negative quanta _ =>
    if quanta = 0 then "0"
    else
      let digits := (Decimal.shortest .up quanta).positional
      String.ofList (if negative then '-' :: digits else digits)

end Binary64

end FilterSelect
