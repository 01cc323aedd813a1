import FilterSelect.Compiler.Condition
import FilterSelect.Sql.Select

/-!
# Compiling requests

A request becomes a statement, or the first fault in it: of the table, of the joins in order, of
the selected columns in order, of the filter from left to right. The statement does not depend on
the options; the compiler writes it with options that were checked before.

* `Request.select`: the statement of a request.
* `Compiler.ofOptions`: the compiler with given options, if they are usable.
* `Compiler.compile`, `Compiler.compileFilter`: the text of the statement, or of its condition.
-/

namespace FilterSelect

/-! ## Statements -/

/-- The first part that a join lacks. -/
def Join.missing? (j : Join) : Option JoinPart :=
  if j.targetTable = "" then some .targetTable
  else if j.sourceColumn = "" then some .sourceColumn
  else if j.targetColumn = "" then some .targetColumn
  else none

/-- Refuses the first join that lacks a part. `position` is that of the first join of the list. -/
def checkJoins (position : Nat) : List Join → Except CompileError Unit
  | [] => .ok ()
  | j :: js =>
    match j.missing? with
    | some part => .error (.incompleteJoin position j.targetTable part)
    | none => checkJoins (position + 1) js

/-- The shown columns of a list of selected ones. `position` is that of the first of the list. -/
def outputColumns (s : Scope) (position : Nat) :
    List SelectedColumn → Except CompileError (List Sql.OutputColumn)
  | [] => .ok []
  | c :: cs => do
    if c.column = "" then .error (.incompleteColumn position)
    let table := if c.table = "" then s.table else c.table
    let source ← s.source table (.selectedColumn c.column)
    let output := if c.output = "" then c.column else c.output
    let rest ← outputColumns s (position + 1) cs
    .ok (⟨⟨source, c.column⟩, output⟩ :: rest)

namespace Request

/-- What the statement shows. -/
def projection (r : Request) : Except CompileError Sql.Projection :=
  if r.columns.isEmpty then .ok .everything
  else .columns <$> outputColumns r.scope 0 r.columns

/-- The statement of a request. -/
def select (r : Request) : Except CompileError Sql.Select := do
  if r.table = "" then .error .missingTable
  checkJoins 0 r.joins
  let projection ← r.projection
  let condition ← r.filter.condition r.scope
  .ok ⟨projection, r.table, r.joins, condition⟩

end Request

/-! ## The compiler -/

/-- Options that may be written into a statement. -/
structure Compiler where
  options : Options := {}
  usable : options.fault? = none := by decide +kernel

namespace Compiler

/-- The compiler with the given options. -/
def ofOptions (o : Options) : Except CompileError Compiler :=
  match h : o.fault? with
  | none => .ok ⟨o, h⟩
  | some setting => .error (.unusableOption setting (o.get setting))

/-- The text of the statement of a request. -/
def compile (c : Compiler) (r : Request) : Except CompileError String :=
  (Sql.Select.sql c.options) <$> r.select

/-- The text of the condition of a request alone; empty when no rule is complete. -/
def compileFilter (c : Compiler) (r : Request) : Except CompileError String :=
  (Sql.Where.sql c.options) <$> r.filter.condition r.scope

end Compiler

end FilterSelect
