import FilterSelect.Request.Basic
import FilterSelect.Sql.Condition

/-!
# Statements

A statement that shows columns of a table and of the tables joined to it, for the rows that fulfil
a condition. It knows its tables by position; the aliases come in when the text is written.

* `Select.sql`: the statement as it is written.
-/

namespace FilterSelect.Sql

/-- A column that is shown, and under which name. -/
structure OutputColumn where
  column : ColumnRef
  output : String
  deriving DecidableEq, Repr

/-- The shown column as it is written. -/
def OutputColumn.sql (o : Options) (c : OutputColumn) : String :=
  c.column.sql o ++ " AS " ++ quotedName c.output

/-- What a statement shows. -/
inductive Projection
  /-- All columns of all tables. -/
  | everything
  | columns (list : List OutputColumn)
  deriving DecidableEq, Repr

/-- The projection of a statement with so many joins. -/
def Projection.sql (o : Options) (joinCount : Nat) : Projection → String
  | .everything =>
    ", ".intercalate <|
      (Source.primary :: (List.range joinCount).map .join).map fun s => s.name o ++ ".*"
  | .columns list => ", ".intercalate (list.map (OutputColumn.sql o))

/-- The join at a position, with the space before it. -/
def joinSql (o : Options) (position : Nat) (j : Join) : String :=
  " " ++ j.type.keyword ++ " JOIN " ++ quotedName j.targetTable ++ " AS " ++ joinAlias position ++
    " ON " ++ ColumnRef.sql o ⟨.primary, j.sourceColumn⟩ ++ " = " ++
    ColumnRef.sql o ⟨.join position, j.targetColumn⟩

/-- A statement. -/
structure Select where
  projection : Projection
  table : String
  joins : List Join
  condition : Where

namespace Select

/-- The statement up to its condition. -/
def headSql (o : Options) (s : Select) : String :=
  "SELECT " ++ s.projection.sql o s.joins.length ++ " FROM " ++ quotedName s.table ++ " AS " ++
    o.primaryAlias ++ String.join (s.joins.zipIdx.map fun (j, position) => joinSql o position j)

/-- The statement as it is written. -/
def sql (o : Options) (s : Select) : String :=
  if s.condition.clauses.isEmpty then s.headSql o
  else s.headSql o ++ " WHERE " ++ s.condition.sql o

end Select

end FilterSelect.Sql
