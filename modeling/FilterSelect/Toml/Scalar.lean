import FilterSelect.Number.Numeral

/-!
# Bare scalars

Which texts of a TOML document are values without quotes: truth values, numbers, dates and times.
Only the forms are told apart; nothing here needs what they are worth. So a whole number is told by
how it begins and by its underscores, and its digits are left to whoever needs them.

* `isValue`: whether a text is a value.
-/

namespace FilterSelect.Toml.Scalar

/-! ## Numbers -/

/-- Whether a digit stands before each underscore and behind it. `fits` says whether one stands before
the text. -/
def isSeparated (isDigit : Char → Bool) (fits : Bool) : List Char → Bool
  | [] => true
  | c :: cs =>
    if c = '_' then fits && cs.head?.any isDigit && isSeparated isDigit false cs
    else isSeparated isDigit (isDigit c) cs

/-- Whether the character is a digit of the radix. -/
def isDigitOf (radix : Nat) (c : Char) : Bool := (Numeral.digit? radix c).isSome

/-- Digits of a radix with single underscores between them; there may be none. -/
def isGrouped (radix : Nat) (cs : List Char) : Bool :=
  (cs.all fun c => isDigitOf radix c || c == '_') && isSeparated (isDigitOf radix) false cs

/-- The text without a sign at its start. -/
def unsigned (cs : List Char) : List Char := (Numeral.sign cs).2

/-- A whole number: an optional sign and digits, with no zero before others. Behind its first
underscore any characters may stand that are not those of a fraction or an exponent, and no space,
as long as each underscore has a digit in front and behind; those of radix 16 count. -/
def isDecimal (cs : List Char) : Bool :=
  let body := unsigned cs
  let rest := body.dropWhile Char.isDigit
  if rest.isEmpty then body = ['0'] || body.head?.any (· ≠ '0')
  else
    rest.head? = some '_' && body.head? ≠ some '0' &&
      (rest.all fun c => c ≠ ' ' && c ≠ '.' && c ≠ 'e' && c ≠ 'E') &&
      isSeparated (isDigitOf 16) false body

/-- A whole number: decimal, or in another radix with its mark and no sign. -/
def isInteger : List Char → Bool
  | '0' :: 'x' :: cs => isGrouped 16 cs
  | '0' :: 'o' :: cs => isGrouped 8 cs
  | '0' :: 'b' :: cs => isGrouped 2 cs
  | cs => isDecimal cs

/-- Whether the character may stand in a run of digits. -/
def isRunChar (c : Char) : Bool := c.isDigit || c == '_'

/-- Digits and underscores with at least one digit. -/
def isRun (cs : List Char) : Bool := cs.all isRunChar && cs.any Char.isDigit

/-- A run of digits with no zero before others. -/
def isMantissa (cs : List Char) : Bool :=
  isRun cs && ((cs.countP Char.isDigit) ≤ 1 || cs.head? ≠ some '0')

/-- An exponent with its mark, or nothing. -/
def isExponent : List Char → Bool
  | [] => true
  | mark :: cs => (mark = 'e' || mark = 'E') && isRun (unsigned cs)

/-- A fraction with its point, an exponent, or both. -/
def isTail : List Char → Bool
  | [] => false
  | '.' :: cs => isRun (cs.takeWhile isRunChar) && isExponent (cs.dropWhile isRunChar)
  | cs => isExponent cs

/-- A number with a fraction, an exponent or both, or a name of one that is not finite. -/
def isFloat (cs : List Char) : Bool :=
  let body := unsigned cs
  body = ['i', 'n', 'f'] || body = ['n', 'a', 'n'] ||
    (isMantissa (body.takeWhile isRunChar) && isTail (body.dropWhile isRunChar) &&
      isSeparated Char.isDigit false body)

/-! ## Times -/

/-- A number of exactly so many digits. -/
def fixed? (width : Nat) (cs : List Char) : Option Nat :=
  if cs.length = width && cs.all Char.isDigit then some (Numeral.decimalNumber cs) else none

/-- The days of a month. -/
def daysOf (year month : Nat) : Nat :=
  if month = 2 then
    if year % 4 = 0 && (year % 100 ≠ 0 || year % 400 = 0) then 29 else 28
  else if month = 4 || month = 6 || month = 9 || month = 11 then 30
  else 31

/-- A day of the calendar. -/
def isDate (cs : List Char) : Bool :=
  match (cs.splitOn '-').zipWith (fun part width => fixed? width part) [4, 2, 2] with
  | [some year, some month, some day] =>
    cs.length = 10 && 1 ≤ month && month ≤ 12 && 1 ≤ day && day ≤ daysOf year month
  | _ => false

/-- Hours and minutes. -/
def isClock (cs : List Char) : Bool :=
  match (cs.splitOn ':').map (fixed? 2) with
  | [some hour, some minute] => hour < 24 && minute < 60
  | _ => false

/-- Seconds with a fraction or without. -/
def isSecond (cs : List Char) : Bool :=
  match cs.splitOn '.' with
  | [whole] => (fixed? 2 whole).any (· ≤ 60)
  | [whole, fraction] =>
    (fixed? 2 whole).any (· ≤ 60) && !fraction.isEmpty && fraction.all Char.isDigit
  | _ => false

/-- A time of day; the seconds may be missing. -/
def isTime (cs : List Char) : Bool :=
  isClock (cs.take 5) &&
    (cs.length = 5 || ((cs.drop 5).head? = some ':' && isSecond (cs.drop 6)))

/-- A time of day with an offset from universal time or without. -/
def isZonedTime (cs : List Char) : Bool :=
  let time := cs.takeWhile fun c => c.isDigit || c == ':' || c == '.'
  isTime time &&
    match cs.drop time.length with
    | [] => true
    | [z] => z = 'Z' || z = 'z'
    | mark :: offset => (mark = '+' || mark = '-') && isClock offset

/-- A date, a time of day, or both with one character between. -/
def isTimestamp (cs : List Char) : Bool :=
  isTime cs ||
    (isDate (cs.take 10) &&
      match cs.drop 10 with
      | [] => true
      | mark :: time => (mark = 'T' || mark = 't' || mark = ' ') && isZonedTime time)

/-! ## Values -/

/-- A truth value. -/
def isTruth (cs : List Char) : Bool := cs = ['t', 'r', 'u', 'e'] || cs = ['f', 'a', 'l', 's', 'e']

/-- Whether the characters are a value. -/
def isValue (cs : List Char) : Bool := isTruth cs || isInteger cs || isFloat cs || isTimestamp cs

end FilterSelect.Toml.Scalar
