import FilterSelect.Compiler.Basic
import FilterSelect.Request.OfJson

/-!
# Answering requests

A request is compiled, its statement is handed to an executor, and the outcome is wrapped in an
envelope. The database is not part of this library: an executor is any function from a statement
to its rows, or to an error message, in any monad.

* `Request.run`: the response to a request.
* `handle`: the response to the body of a request.
* `Response.toJson`: the envelope.
-/

namespace FilterSelect

/-- A result row: the names of its columns with their values, in order. -/
abbrev Row := List (String × Value)

/-- What runs statements: it yields the rows, or an error message. -/
abbrev Executor (m : Type → Type) := String → m (Except String (List Row))

/-- The outcome of a request. -/
inductive Response
  | success (table : String) (rows : List Row) (hasJoins : Bool)
  /-- What the user is told, and what went wrong in detail. -/
  | failure (userMessage devMessage : String)

/-- What a user is told when the body is no request. -/
def invalidRequestMessage : String := "Invalid query request. Please check the request body."

/-- What a user is told when the request cannot be compiled. -/
def uncompilableMessage : String :=
  "Query could not be compiled. Please check your joins and filters."

/-- What a user is told when the statement fails. -/
def rejectedMessage : String := "Query syntax error. Please check your filters."

namespace Response

/-- Whether the statement ran. -/
def isSuccess : Response → Bool
  | success .. => true
  | failure .. => false

/-- The status code of the response. -/
def status (r : Response) : Nat := if r.isSuccess then 200 else 400

/-- The document of a row; of two columns with one name the later stays. -/
def rowToJson (row : Row) : Json := .ofMembers (row.map fun (name, v) => (name, v.toJson))

/-- The envelope of a response. -/
def toJson : Response → Json
  | success table rows hasJoins => .ofMembers [
      ("success", .bool true),
      ("table", .string table),
      ("count", .number (.unsigned (.ofNatClamp rows.length))),
      ("data", .array (rows.map rowToJson)),
      ("hasJoins", .bool hasJoins)]
  | failure userMessage devMessage => .ofMembers [
      ("success", .bool false),
      ("userMessage", .string userMessage),
      ("devMessage", .string devMessage)]

/-- The response to a request whose statement was executed. -/
def ofOutcome (request : Request) : Except String (List Row) → Response
  | .ok rows => success request.table rows request.hasJoins
  | .error message => failure rejectedMessage message

end Response

variable {m : Type → Type} [Monad m]

/-- The response to a request. A request that does not compile reaches no executor. -/
def Request.run (r : Request) (c : Compiler) (execute : Executor m) : m Response :=
  match c.compile r with
  | .ok sql => Response.ofOutcome r <$> execute sql
  | .error e => pure (.failure uncompilableMessage e.message)

/-- The response to the body of a request. -/
def handle (body : ByteArray) (c : Compiler) (execute : Executor m) : m Response :=
  match Request.readBytes body with
  | .ok request => request.run c execute
  | .error e => pure (.failure invalidRequestMessage e.message)

end FilterSelect
