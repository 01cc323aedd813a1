import FilterSelect.Number.Binary64

/-!
# JSON documents

Objects are lists of members. Those that are read or built by `Json.ofMembers` have their keys in
order, each once; of two members with one key the later stays.
-/

namespace FilterSelect

/-- A number of a document: whole numbers keep their value when a 64-bit word holds them, and all
others are floating point numbers. -/
inductive Json.Number
  | unsigned (n : UInt64)
  | signed (n : Int64)
  | float (x : Binary64)
  deriving DecidableEq

/-- A JSON document. -/
inductive Json
  | null
  | bool (b : Bool)
  | number (n : Json.Number)
  | string (s : String)
  | array (items : List Json)
  | object (members : List (String × Json))

namespace Json

/-- The members of an object. -/
abbrev Members := List (String × Json)

namespace Members

/-- The value under a key. -/
def get? (members : Members) (key : String) : Option Json := members.lookup key

/-- The members with one more at its place in the order of keys; it replaces one of its key. Keys
are ordered by their characters. -/
def insert (key : String) (value : Json) : Members → Members
  | [] => [(key, value)]
  | (k, v) :: rest =>
    if key < k then (key, value) :: (k, v) :: rest
    else if key = k then (key, value) :: rest
    else (k, v) :: insert key value rest

/-- The members of a list, in order; of two with one key the later stays. -/
def ofList (members : List (String × Json)) : Members :=
  members.foldl (fun ms (k, v) => insert k v ms) []

end Members

/-- The object with the given members. -/
def ofMembers (members : List (String × Json)) : Json := .object (Members.ofList members)

end Json

end FilterSelect
