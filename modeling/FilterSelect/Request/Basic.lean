import FilterSelect.Filter.Tree

/-!
# Query requests

What a query builder asks for: a table, the tables joined to it, the columns to show, and a
filter on the rows.
-/

namespace FilterSelect

/-- Which rows without a partner a join keeps. -/
inductive JoinType
  | inner
  | left
  | right
  deriving DecidableEq, Repr

namespace JoinType

/-- The keyword of a statement, which is also the name in a request. -/
def keyword : JoinType → String
  | inner => "INNER"
  | left => "LEFT"
  | right => "RIGHT"

/-- The join type of a name in any letter case. -/
def ofName? (name : String) : Option JoinType :=
  [inner, left, right].find? fun t => Text.sameIgnoringCase t.keyword name

theorem ofName?_keyword (t : JoinType) : ofName? t.keyword = some t := by
  cases t <;> decide +kernel

end JoinType

/-- A table joined to the queried one where `sourceColumn` of the queried table equals
`targetColumn` of this one. -/
structure Join where
  type : JoinType := .inner
  targetTable : String
  sourceColumn : String
  targetColumn : String
  deriving DecidableEq, Repr

/-- A column to show. An empty table is the queried one, an empty output name the column's. -/
structure SelectedColumn where
  table : String
  column : String
  output : String := column
  deriving DecidableEq, Repr

/-- A request; without selected columns it shows all columns of all its tables. -/
structure Request where
  table : String := ""
  filter : Group := {}
  joins : List Join := []
  columns : List SelectedColumn := []

namespace Request

/-- Whether another table is joined. -/
def hasJoins (r : Request) : Bool := !r.joins.isEmpty

/-- The request with one more join at the end. -/
def addJoin (r : Request) (j : Join) : Request := { r with joins := r.joins ++ [j] }

/-- The request with one more selected column at the end. -/
def addColumn (r : Request) (c : SelectedColumn) : Request :=
  { r with columns := r.columns ++ [c] }

/-- The request with its filter pruned. -/
def prune (r : Request) : Request := { r with filter := r.filter.prune }

end Request

end FilterSelect
