import FilterSelect.Compiler.Error
import FilterSelect.Request.Basic
import FilterSelect.Sql.Condition

/-!
# Tables in scope

A request names tables; a statement knows them by position. The queried table comes first, then
the joins in order, so a table that is joined twice is the first of the two.
-/

namespace FilterSelect

/-- The tables that a request may name: the queried one and those joined to it. -/
structure Scope where
  table : String
  joins : List Join

/-- The scope of a request. -/
def Request.scope (r : Request) : Scope := ⟨r.table, r.joins⟩

namespace Scope

/-- The first table of a name. -/
def source? (s : Scope) (table : String) : Option Sql.Source :=
  if table = s.table then some .primary
  else (s.joins.findIdx? fun j => j.targetTable = table).map .join

/-- The first table of a name, or the fault that there is none. -/
def source (s : Scope) (table : String) (use : TableUse) : Except CompileError Sql.Source :=
  match s.source? table with
  | some source => .ok source
  | none => .error (.unknownTable table use)

/-- The column that a field names; a bare one belongs to the queried table. -/
def column (s : Scope) (field : String) : Except CompileError Sql.ColumnRef :=
  match Field.ofText field with
  | .bare column => .ok ⟨.primary, column⟩
  | .qualified table column => do
    let source ← s.source table (.filterField field)
    .ok ⟨source, column⟩

end Scope

end FilterSelect
