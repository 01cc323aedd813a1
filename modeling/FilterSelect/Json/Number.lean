import FilterSelect.Json.Basic
import FilterSelect.Number.Numeral

/-!
# Numbers in JSON

A number is read in two steps. Its digits are gathered in a 64-bit word, as many as fit, with an
exponent of ten; then the word is scaled by powers of ten in floating point arithmetic. Each
multiplication and division rounds, so the result is close to the number written but not always
the nearest one.

* `Json.Number.read?`: the number of a complete literal.
* `Json.Number.text`: the literal of a number. A floating point number has its shortest digits, of
  two equally near the even one. It is positional for exponents from -5 to 15, and keeps a fraction
  or an exponent, so that it does not read back as a whole number.
-/

namespace FilterSelect.Json.Number

/-! ## Reading -/

/-- What the gathered digits stay below. -/
def wordLimit : Nat := Nat.pow 2 64

/-- Appends digits to a word as long as it holds them. Yields the word and the digits left. -/
def gather (word : Nat) : List Char → Nat × List Char
  | [] => (word, [])
  | c :: cs =>
    let next := word * 10 + (c.toNat - '0'.toNat)
    if next < wordLimit then gather next cs else (word, c :: cs)

/-- The quanta of the floating point number nearest to a power of ten. -/
def tenPower (exponent : Nat) : Nat := roundSignificant (Nat.pow 10 exponent * quantaOfOne) 1

/-- The largest exponent whose power of ten is finite. -/
def maxTenPower : Nat := 308

/-- A number of quanta times a power of ten: one multiplication or division when the exponent is
small, repeated divisions when it is far below zero, and nothing when the result is infinite. -/
def scale? (quanta : Nat) (exponent : Int) : Option Nat :=
  if exponent.natAbs ≤ maxTenPower then
    match exponent with
    | .ofNat e =>
      let product := roundSignificant (quanta * tenPower e) quantaOfOne
      if product < quantaLimit then some product else none
    | .negSucc e => some (roundSignificant (quanta * quantaOfOne) (tenPower (e + 1)))
  else if quanta = 0 then some 0
  else if 0 < exponent then none
  else scale? (roundSignificant (quanta * quantaOfOne) (tenPower maxTenPower))
    (exponent + maxTenPower)
termination_by exponent.natAbs
decreasing_by simp only [maxTenPower] at *; omega

/-- The floating point number of a literal's parts. -/
def float? (negative : Bool) (whole fraction : List Char) (exponent : Int) : Option Number :=
  let (word, surplus) := gather 0 whole
  let (word, unread) := gather word fraction
  let exponent := exponent + surplus.length - (fraction.length - unread.length : Nat)
  (scale? (roundSignificant (word * quantaOfOne) 1) exponent).map fun quanta =>
    .float (.ofQuanta negative quanta)

/-- The number of a literal without fraction and exponent. -/
def whole? (negative : Bool) (digits : List Char) : Option Number :=
  let n := Numeral.decimalNumber digits
  if negative then
    if n ≤ Nat.pow 2 63 then some (.signed (.ofInt (-n))) else float? true digits [] 0
  else
    if n < wordLimit then some (.unsigned (.ofNat n)) else float? false digits [] 0

/-- A fraction, if the text goes on with a point: at least one digit. -/
def fraction? : List Char → Option (List Char × List Char)
  | '.' :: cs =>
    let digits := cs.takeWhile Char.isDigit
    if digits.isEmpty then none else some (digits, cs.dropWhile Char.isDigit)
  | cs => some ([], cs)

/-- The number of a complete literal: an optional minus sign; digits, with no zero before others;
an optional fraction; an optional exponent. -/
def read? (literal : List Char) : Option Number :=
  let (negative, cs) : Bool × List Char := match literal with
    | '-' :: rest => (true, rest)
    | _ => (false, literal)
  let whole := cs.takeWhile Char.isDigit
  let rest := cs.dropWhile Char.isDigit
  match whole with
  | [] => none
  | '0' :: _ :: _ => none
  | _ =>
    if rest.isEmpty then whole? negative whole
    else do
      let (fraction, rest) ← fraction? rest
      let exponent ← Numeral.exponent? rest
      float? negative whole fraction exponent

/-! ## Writing -/

/-- The exponents that are written positionally. -/
def isPositional (exponent : Int) : Bool := -5 ≤ exponent && exponent ≤ 15

/-- The notation with an exponent: one digit, a point if more follow, and a signed exponent. -/
def scientific (digits : List Char) (exponent : Int) : List Char :=
  let mantissa := match digits with
    | [] => []
    | [d] => [d]
    | d :: ds => d :: '.' :: ds
  mantissa ++ ['e', if exponent < 0 then '-' else '+'] ++ Decimal.digitText exponent.natAbs

/-- The literal of a positive number of quanta. -/
def positiveText (quanta : Nat) : List Char :=
  let d := Decimal.shortest .even quanta
  let digits := Decimal.digitText d.digits
  let exponent := d.exponent + digits.length - 1
  if isPositional exponent then
    d.positional ++ (if 0 ≤ d.exponent then ['.', '0'] else [])
  else scientific digits exponent

/-- The literal of a floating point number; there is none for the numbers that are not finite. -/
def floatText : Binary64 → String
  | .finite negative quanta _ =>
    String.ofList <| (if negative then ['-'] else []) ++
      if quanta = 0 then ['0', '.', '0'] else positiveText quanta
  | _ => "null"

/-- The literal of a number. -/
def text : Number → String
  | .unsigned n => toString n.toNat
  | .signed n => toString n.toInt
  | .float x => floatText x

end FilterSelect.Json.Number
