import FilterSelect.Json.Basic
import FilterSelect.Value.Basic

/-!
# Values in JSON

A rule's value is a scalar or a list of scalars. Result values are written back, lists within
lists included; a number that is not finite is written as null.
-/

namespace FilterSelect.Value

/-- A whole number that a signed word holds stays whole; a larger one becomes a floating point
number. -/
def ofNumber : Json.Number → Value
  | .unsigned n =>
    if n.toNat < Nat.pow 2 63 then .int (.ofNat n.toNat) else .float (.ofNat n.toNat)
  | .signed n => .int n
  | .float x => .float x

/-- The value of a scalar. -/
def ofScalar? : Json → Option Value
  | .null => some .null
  | .bool b => some (.bool b)
  | .number n => some (ofNumber n)
  | .string s => some (.text s)
  | .array _ | .object _ => none

/-- The value of a scalar or of a list of scalars. -/
def ofJson? : Json → Option Value
  | .array items => (items.mapM ofScalar?).map .list
  | scalar => ofScalar? scalar

mutual

/-- The document of a value. -/
def toJson : Value → Json
  | .null => .null
  | .bool b => .bool b
  | .int n => .number (.signed n)
  | .float x => if x.isFinite then .number (.float x) else .null
  | .text s => .string s
  | .list members => .array (membersToJson members)

/-- The documents of a list's members. -/
def membersToJson : List Value → List Json
  | [] => []
  | v :: vs => v.toJson :: membersToJson vs

end

end FilterSelect.Value
