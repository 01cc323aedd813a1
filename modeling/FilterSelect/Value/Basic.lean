import FilterSelect.Number.Numeral

/-!
# Values

What a rule compares its column with, and what a result row holds. Values come untyped from a
form, where a number typed into a text box is a text; so a value counts as a number when its text
is a numeral.
-/

namespace FilterSelect

/-- A scalar, or a list of values. -/
inductive Value
  | null
  | bool (b : Bool)
  | int (n : Int64)
  | float (x : Binary64)
  | text (s : String)
  | list (members : List Value)

namespace Value

/-- Whether the value is null. -/
def isNull : Value → Bool
  | .null => true
  | _ => false

mutual

/-- The value as the user saw it: a list shows its members with commas between them. -/
def toText : Value → String
  | .null => "null"
  | .bool b => if b then "true" else "false"
  | .int n => toString n.toInt
  | .float x => x.text
  | .text s => s
  | .list members => ",".intercalate (memberTexts members)

/-- The texts of a list's members; null shows nothing. -/
def memberTexts : List Value → List String
  | [] => []
  | v :: vs => (if v.isNull then "" else v.toText) :: memberTexts vs

end

/-- The number literal of a numeric value: a whole number in full, any other number in plain
notation. A text or a list is numeric when its text is a numeral. -/
def numeral? (v : Value) : Option String :=
  match v with
  | .null | .bool _ => none
  | .int n => some (toString n.toInt)
  | .float x => if x.isFinite then some x.text else none
  | .text s => (Numeral.read? s).map Binary64.text
  | .list _ => (Numeral.read? v.toText).map Binary64.text

/-- Whether the value counts as a number. -/
def isNumeric (v : Value) : Bool := v.numeral?.isSome

end Value

end FilterSelect
