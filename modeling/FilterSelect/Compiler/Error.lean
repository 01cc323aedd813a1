import FilterSelect.Options
import FilterSelect.Text.Quoted

/-!
# Faults that stop compiling

Incomplete rules are passed over in silence; what would make the statement itself wrong is a
fault.
-/

namespace FilterSelect

/-- A part without which a join has no text. -/
inductive JoinPart
  | targetTable
  | sourceColumn
  | targetColumn
  deriving DecidableEq, Repr

/-- The part's name in a request. -/
def JoinPart.name : JoinPart → String
  | targetTable => "targetTable"
  | sourceColumn => "sourceColumn"
  | targetColumn => "targetColumn"

/-- A place where a table is named. -/
inductive TableUse
  | filterField (field : String)
  | selectedColumn (column : String)
  deriving DecidableEq, Repr

/-- The place in words. -/
def TableUse.text : TableUse → String
  | filterField field => "filter field " ++ Text.quoted field
  | selectedColumn column => "selected column " ++ Text.quoted column

/-- The fault that stops a request from being compiled. -/
inductive CompileError
  | missingTable
  | incompleteJoin (position : Nat) (table : String) (missing : JoinPart)
  | incompleteColumn (position : Nat)
  /-- The table is neither queried nor joined. -/
  | unknownTable (table : String) (use : TableUse)
  | unusableOption (setting : Setting) (value : String)
  deriving DecidableEq, Repr

/-- The fault in words. -/
def CompileError.message : CompileError → String
  | missingTable => "Table name is required"
  | incompleteJoin position table missing =>
    "Join " ++ toString position ++ " (" ++ Text.quoted table ++ ") is missing its " ++
      missing.name
  | incompleteColumn position => "Selected column " ++ toString position ++ " has no column name"
  | unknownTable table use =>
    "Table '" ++ table ++ "' in " ++ use.text ++
      " is neither the queried table nor a joined table"
  | unusableOption setting value =>
    "Invalid compiler option " ++ setting.name ++ " = " ++ Text.quoted value

end FilterSelect
