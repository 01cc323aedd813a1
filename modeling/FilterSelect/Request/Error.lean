/-!
# Mistakes in a request

Why a text is no request, in the order in which the parts of a request are read.
-/

namespace FilterSelect

/-- The first mistake in the text of a request, a filter or a catalog. -/
inductive RequestError
  /-- The text is no JSON document. -/
  | invalidJson
  | expectedObject
  | expectedArray
  /-- The table is absent, empty or no string. -/
  | missingTable
  | invalidCombinator (name : String)
  | invalidJoinType (name : String)
  /-- The value of the rule on a field is an object, or a list that holds a list or an object. -/
  | invalidValue (field : String)
  /-- Groups are nested deeper than `limit`. -/
  | tooDeep (limit : Nat)
  deriving DecidableEq, Repr

/-- The mistake in words. -/
def RequestError.message : RequestError → String
  | invalidJson => "Invalid JSON syntax or encoding"
  | expectedObject => "Expected JSON object"
  | expectedArray => "Expected JSON array"
  | missingTable => "Table name is required"
  | invalidCombinator name => "Unknown combinator '" ++ name ++ "'"
  | invalidJoinType name => "Unknown join type '" ++ name ++ "'"
  | invalidValue field => "Value of rule '" ++ field ++ "' must be a scalar or a list"
  | tooDeep limit => "Rule groups nested deeper than " ++ toString limit

end FilterSelect
