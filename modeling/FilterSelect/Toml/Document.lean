import FilterSelect.Toml.Scalar
import FilterSelect.Toml.Statement

/-!
# TOML documents

The tables that the statements of a document make up. The statements are taken in order, and the
first one whose contents are wrong decides what is wrong with the document.

* `Document.read`: the tables of a document.
* `Document.add`: what one more statement does to them.
-/

namespace FilterSelect.Toml

/-- A value. Numbers, truth values and times are one kind. -/
inductive Value
  | string (s : String)
  | scalar
  | array (items : List Value)
  | table (entries : List (List String × Value))

/-- Why a text is no document. -/
inductive Fault
  /-- It breaks some rule of the format. -/
  | malformed
  /-- A key has more names than tables may lie in one another. -/
  | longKey
  deriving DecidableEq, Repr

/-! ## Keys and values -/

/-- How many names a key may have. -/
def Key.maxLength : Nat := 80

/-- The text of a name. -/
def Name.text? : Name → Option String
  | .text s => some s
  | .broken | .missing => none

/-- The names of a key. -/
def Key.names (key : Key) : Except Fault (List String) :=
  match key.mapM Name.text? with
  | none => .error .malformed
  | some names => if Key.maxLength < names.length then .error .longKey else .ok names

/-- Whether one path begins with the other. -/
def overlap (p q : List String) : Bool := p.isPrefixOf q || q.isPrefixOf p

mutual

/-- The value of an expression. -/
def Expression.value : Expression → Except Fault Value
  | .string none => .error .malformed
  | .string (some s) => .ok (.string s)
  | .bare text => if Scalar.isValue text then .ok .scalar else .error .malformed
  | .array items => return .array (← Expression.values items)
  | .table entries => return .table (← Expression.entries [] entries)

/-- The values of expressions. -/
def Expression.values : List Expression → Except Fault (List Value)
  | [] => .ok []
  | item :: items => return (← item.value) :: (← Expression.values items)

/-- The entries of an inline table; `given` are the paths before them. No path may overlap another,
since each of them gives a value, which is complete: it cannot be given again or added to. A key
without a value gives nothing, but its names have to be names. -/
def Expression.entries (given : List (List String)) :
    List (Key × Option Expression) → Except Fault (List (List String × Value))
  | [] => .ok []
  | (key, none) :: entries => do
    let _ ← key.names
    Expression.entries given entries
  | (key, some expression) :: entries => do
    let path ← key.names
    let value ← expression.value
    if given.any (overlap path) then .error .malformed
    else return (path, value) :: (← Expression.entries (path :: given) entries)

end

/-! ## Tables -/

/-- How a table came to be, which decides what may still be added to it. -/
inductive Origin
  /-- A header names it. -/
  | header
  /-- The header of an inner table needs it. -/
  | implied
  /-- The key of an entry needs it. -/
  | key
  deriving DecidableEq, Repr

/-- What a name in a table stands for. -/
inductive Item
  | value (v : Value)
  | table (origin : Origin) (entries : List (String × Item))
  /-- An array of tables, the latest first. -/
  | tables (entries : List (List (String × Item)))

/-- The entries of a table. -/
abbrev Entries := List (String × Item)

namespace Entries

/-- The entries with an item under a name, in place of the one that was there. -/
def put (es : Entries) (name : String) (item : Item) : Entries :=
  if (es.lookup name).isSome then es.map fun e => if e.1 = name then (name, item) else e
  else es ++ [(name, item)]

/-- Changes the entries of the table at a path, from a table of the given origin on; tables that are
missing on the way come to be. For the key of an entry no table on the way may have a header, and
of an array of tables the latest counts. -/
def change (forKey : Bool) (f : Origin → Entries → Except Fault Entries) :
    List String → Origin → Entries → Except Fault Entries
  | [], origin, es => f origin es
  | name :: path, _, es =>
    match es.lookup name with
    | none => do
      let origin := if forKey then .key else .implied
      return es.put name (.table origin (← change forKey f path origin []))
    | some (.table origin inner) =>
      if forKey && origin = .header then .error .malformed
      else do return es.put name (.table origin (← change forKey f path origin inner))
    | some (.tables (latest :: earlier)) => do
      return es.put name (.tables ((← change forKey f path .header latest) :: earlier))
    | some _ => .error .malformed

/-- One more entry of a table. A key of several names needs tables that such keys made. -/
def add (es : Entries) (path : List String) (name : String) (v : Value) : Except Fault Entries :=
  change true (fun origin es =>
    if (origin = .key) ≠ (path ≠ []) || (es.lookup name).isSome then .error .malformed
    else .ok (es.put name (.value v))) path .header es

/-- One more table with a header of its own, which may have been implied before. -/
def addTable (es : Entries) (path : List String) (name : String) : Except Fault Entries :=
  change false (fun _ es =>
    match es.lookup name with
    | none => .ok (es.put name (.table .header []))
    | some (.table .implied inner) => .ok (es.put name (.table .header inner))
    | some _ => .error .malformed) path .header es

/-- One more table in an array of tables. -/
def addToTables (es : Entries) (path : List String) (name : String) : Except Fault Entries :=
  change false (fun _ es =>
    match es.lookup name with
    | none => .ok (es.put name (.tables [[]]))
    | some (.tables ts) => .ok (es.put name (.tables ([] :: ts)))
    | some _ => .error .malformed) path .header es

end Entries

/-! ## Documents -/

/-- A document as far as it has been read. -/
structure Document where
  root : Entries := []
  /-- The path of the table that entries go to. -/
  current : List String := []

namespace Document

/-- The document with one more statement. -/
def add (d : Document) : Statement → Except Fault Document
  | .header inArray key => do
    let names ← key.names
    match names.getLast? with
    | none => .error .malformed
    | some name =>
      let path := names.dropLast
      let root ← if inArray then d.root.addToTables path name else d.root.addTable path name
      return ⟨root, names⟩
  | .entry key expression => do
    let names ← key.names
    let value ← expression.value
    match names.getLast? with
    | none => .error .malformed
    | some name =>
      let root ← d.root.change false (fun _ es => es.add names.dropLast name value)
        d.current .header
      return { d with root }

/-- The entries of the outermost table of a document. -/
def read (text : String) : Except Fault Entries :=
  match Statement.read? text with
  | none => .error .malformed
  | some statements => return (← statements.foldlM add {}).root

end Document

end FilterSelect.Toml
