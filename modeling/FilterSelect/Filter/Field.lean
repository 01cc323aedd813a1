/-!
# Fields

A rule names its column by a field: `column`, which belongs to the queried table, or
`table.column`. Only the first point separates, so a column's name may hold points.
-/

namespace FilterSelect

/-- A column, with its table or without. -/
inductive Field
  | bare (column : String)
  | qualified (table column : String)
  deriving DecidableEq, Repr

namespace Field

/-- The field that a text names. -/
def ofText (text : String) : Field :=
  match text.toList.dropWhile (· ≠ '.') with
  | [] => .bare text
  | _ :: column =>
    .qualified (String.ofList (text.toList.takeWhile (· ≠ '.'))) (String.ofList column)

/-- Whether every part of the field has a name. -/
def isComplete : Field → Bool
  | .bare column => column ≠ ""
  | .qualified table column => table ≠ "" && column ≠ ""

end Field

end FilterSelect
