import FilterSelect.Json.Token

/-!
# Reading JSON

A machine takes the tokens one by one. It keeps the arrays and objects that are still open on a
stack of its own, so nesting has no limit.
-/

namespace FilterSelect.Json

namespace Reader

/-- An array or object that is still open, up to the value that is being read. -/
inductive Frame
  /-- An array with its items so far, last first. -/
  | array (items : List Json)
  /-- An object with its members so far, and the key of the next. -/
  | member (members : Members) (key : String)

/-- What the machine waits for, with the frames around it. -/
inductive State
  /-- A value. -/
  | value (stack : List Frame)
  /-- The first item of an array, or its end. -/
  | item (stack : List Frame)
  /-- A key of an object, or its end when `mayEnd`. -/
  | key (members : Members) (mayEnd : Bool) (stack : List Frame)
  /-- The colon behind a key. -/
  | colon (members : Members) (key : String) (stack : List Frame)
  /-- What may follow a complete value: a comma, the end of what is around it, or nothing. -/
  | complete (value : Json) (stack : List Frame)

/-- The state after the first token of a value. -/
def start? (stack : List Frame) : Token → Option State
  | .openArray => some (.item stack)
  | .openObject => some (.key [] true stack)
  | .string s => some (.complete (.string s) stack)
  | .scalar v => some (.complete v stack)
  | _ => none

/-- The state after one more token; none when the token has no place there. -/
def step? : State → Token → Option State
  | .value stack, t => start? stack t
  | .item stack, .closeArray => some (.complete (.array []) stack)
  | .item stack, t => start? (.array [] :: stack) t
  | .key members true stack, .closeObject => some (.complete (.object members) stack)
  | .key members _ stack, .string k => some (.colon members k stack)
  | .colon members k stack, .colon => some (.value (.member members k :: stack))
  | .complete v (.array items :: stack), .comma => some (.value (.array (v :: items) :: stack))
  | .complete v (.array items :: stack), .closeArray =>
    some (.complete (.array (v :: items).reverse) stack)
  | .complete v (.member members k :: stack), .comma =>
    some (.key (members.insert k v) false stack)
  | .complete v (.member members k :: stack), .closeObject =>
    some (.complete (.object (members.insert k v)) stack)
  | _, _ => none

/-- The document of a complete run. -/
def result? : State → Option Json
  | .complete v [] => some v
  | _ => none

end Reader

/-- The document of a text. -/
def read? (text : String) : Option Json := do
  let tokens ← Token.scan? [] text.toList
  let last ← tokens.foldlM Reader.step? (.value [])
  Reader.result? last

end FilterSelect.Json
