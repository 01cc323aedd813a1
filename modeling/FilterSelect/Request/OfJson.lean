import FilterSelect.Json.Reader
import FilterSelect.Json.Writer
import FilterSelect.Request.Basic
import FilterSelect.Request.Error
import FilterSelect.Value.Json

/-!
# Reading requests

A request is a JSON object with the members `table`, `query`, `joins` and `selectedColumns`; a
group has `combinator` and `rules`, a rule `field`, `operator` and `value`. What is being edited
may be missing: a string member that is absent or no string is empty, and members of a group that
are no objects are dropped. The shape itself has to be right, and the first mistake is reported.

* `Request.ofJson`, `Request.read`, `Request.readBytes`: a request from a document, a text, bytes.
* `Group.ofJson`: a filter alone.
-/

namespace FilterSelect

namespace Json.Members

/-- A string member; empty when it is absent or something else. -/
def string (members : Members) (key : String) : String :=
  match members.get? key with
  | some (.string s) => s
  | _ => ""

/-- The items of an array member; none when it is absent or null. -/
def items (members : Members) (key : String) : Except RequestError (List Json) :=
  match members.get? key with
  | none | some .null => .ok []
  | some (.array items) => .ok items
  | some _ => .error .expectedArray

/-- A member that names one of a few things: `standard` when it is absent or null, and a mistake
when it is not such a name. -/
def choice (members : Members) (key : String) (standard : α) (ofName? : String → Option α)
    (mistake : String → RequestError) : Except RequestError α :=
  match members.get? key with
  | none | some .null => .ok standard
  | some (.string name) =>
    match ofName? name with
    | some a => .ok a
    | none => .error (mistake name)
  | some other => .error (mistake other.text)

end Json.Members

open Json (Members)

/-- A document as the members of an object. -/
def Json.members : Json → Except RequestError Members
  | .object members => .ok members
  | _ => .error .expectedObject

/-! ## Filters -/

namespace Rule

/-- The value of a rule; absent when there is no such member. -/
def valueOfMembers (members : Members) : Except RequestError (Option Value) :=
  match members.get? "value" with
  | none => .ok none
  | some json =>
    match Value.ofJson? json with
    | some v => .ok (some v)
    | none => .error (.invalidValue (members.string "field"))

/-- The operator of a rule; absent when there is no such string, or an empty one. -/
def operatorOfMembers (members : Members) : Option Operator :=
  match members.get? "operator" with
  | some (.string name) => Operator.ofName? name
  | _ => none

/-- The rule with the given members. -/
def ofMembers (members : Members) : Except RequestError Rule := do
  let value ← valueOfMembers members
  .ok ⟨members.string "field", operatorOfMembers members, value⟩

end Rule

namespace Group

/-- How deep groups may be nested. -/
def maxDepth : Nat := 32

/-- Whether an object is a group: its rules are an array. -/
def isGroup (members : Members) : Bool :=
  match members.get? "rules" with
  | some (.array _) => true
  | _ => false

/-- The members of a group, given how a nested group is read. Items that are no objects are
dropped. -/
def nodesOfItems (nested : Members → Except RequestError Group) :
    List Json → Except RequestError (List Node)
  | [] => .ok []
  | .object members :: items => do
    let node ← if isGroup members then Group.toNode <$> nested members
      else Node.rule <$> Rule.ofMembers members
    let nodes ← nodesOfItems nested items
    .ok (node :: nodes)
  | _ :: items => nodesOfItems nested items

/-- The group with the given members, when groups may be nested `levels` deep. -/
def ofMembers (levels : Nat) (members : Members) : Except RequestError Group :=
  match levels with
  | 0 => .error (.tooDeep maxDepth)
  | levels + 1 => do
    let combinator ← members.choice "combinator" .and Combinator.ofName? .invalidCombinator
    let items ← members.items "rules"
    let nodes ← nodesOfItems (ofMembers levels) items
    .ok ⟨combinator, nodes⟩

/-- The filter of a document. -/
def ofJson (json : Json) : Except RequestError Group := do ofMembers maxDepth (← json.members)

end Group

/-! ## Joins and selected columns -/

/-- The join of a document. -/
def Join.ofJson (json : Json) : Except RequestError Join := do
  let members ← json.members
  let type ← members.choice "type" .inner JoinType.ofName? .invalidJoinType
  .ok ⟨type, members.string "targetTable", members.string "sourceColumn",
    members.string "targetColumn"⟩

/-- The selected column of a document. Without an output name it keeps its own. -/
def SelectedColumn.ofJson (json : Json) : Except RequestError SelectedColumn := do
  let members ← json.members
  let column := members.string "column"
  let output := match members.get? "alias" with
    | some (.string name) => name
    | _ => column
  .ok ⟨members.string "table", column, output⟩

/-! ## Requests -/

namespace Request

/-- The table of a request, which may not be empty. -/
def tableOfMembers (members : Members) : Except RequestError String :=
  if members.string "table" = "" then .error .missingTable else .ok (members.string "table")

/-- The filter of a request, empty when it is absent or null. -/
def filterOfMembers (members : Members) : Except RequestError Group :=
  match members.get? "query" with
  | none | some .null => .ok {}
  | some json => Group.ofJson json

/-- The request of a document. -/
def ofJson (json : Json) : Except RequestError Request := do
  let members ← json.members
  let table ← tableOfMembers members
  let filter ← filterOfMembers members
  let joins ← (← members.items "joins").mapM Join.ofJson
  let columns ← (← members.items "selectedColumns").mapM SelectedColumn.ofJson
  .ok ⟨table, filter, joins, columns⟩

/-- The request of a text. -/
def read (text : String) : Except RequestError Request :=
  match Json.read? text with
  | some json => ofJson json
  | none => .error .invalidJson

/-- The request of bytes, which have to be UTF-8. -/
def readBytes (bytes : ByteArray) : Except RequestError Request :=
  match String.fromUTF8? bytes with
  | some text => read text
  | none => .error .invalidJson

end Request

/-- The filter of a text. -/
def Group.read (text : String) : Except RequestError Group :=
  match Json.read? text with
  | some json => ofJson json
  | none => .error .invalidJson

end FilterSelect
