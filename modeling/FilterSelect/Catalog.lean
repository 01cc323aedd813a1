import FilterSelect.Request.OfJson

/-!
# Catalogs and fields

A database describes the columns of a table by catalog rows. Each column with a name becomes a
field that a rule can filter by, with an editor that suits the column's type.

* `CatalogColumn.readAll`: the columns of a JSON array of catalog rows.
* `FieldDescriptor.ofColumn`: the field of a column, `table.column`.
-/

namespace FilterSelect

open Json (Members)

/-! ## Editors -/

/-- The editor for a column's values. -/
inductive InputType
  | number
  | checkbox
  | date
  | dateTimeLocal
  | time
  | text
  deriving DecidableEq, Repr

namespace InputType

/-- The editor's name in HTML. -/
def name : InputType → String
  | number => "number"
  | checkbox => "checkbox"
  | date => "date"
  | dateTimeLocal => "datetime-local"
  | time => "time"
  | text => "text"

/-- The PostgreSQL types with an editor of their own. -/
def ofTypes : List (String × InputType) := [
  ("integer", number), ("bigint", number), ("int8", number), ("int4", number),
  ("numeric", number), ("real", number), ("double precision", number), ("boolean", checkbox),
  ("date", date), ("timestamp", dateTimeLocal), ("timestamptz", dateTimeLocal), ("time", time)]

/-- The editor for a PostgreSQL type, named in any letter case; a text box for all others. -/
def ofType (type : String) : InputType :=
  match ofTypes.find? fun (known, _) => Text.sameIgnoringCase known type with
  | some (_, input) => input
  | none => text

end InputType

/-! ## Columns -/

/-- A column of a table. -/
structure CatalogColumn where
  name : String
  type : String
  nullable : Bool
  deriving DecidableEq, Repr

namespace CatalogColumn

/-- A string member under the first of two keys that has one. -/
def stringOf? (members : Members) (first second : String) : Option String :=
  match members.get? first with
  | some (.string s) => some s
  | _ =>
    match members.get? second with
    | some (.string s) => some s
    | _ => none

/-- Whether a row says that the column may be null: `"YES"` in the catalog's own form, or a truth
value in the short form. -/
def nullableOf (members : Members) : Bool :=
  match members.get? "is_nullable", members.get? "nullable" with
  | some (.string flag), _ => flag = "YES"
  | _, some (.bool flag) => flag
  | _, _ => false

/-- The column of a row, in the catalog's own form or the short one; none when the row is no
object or names no column. -/
def ofJson? : Json → Option CatalogColumn
  | .object members =>
    match stringOf? members "column_name" "name" with
    | none | some "" => none
    | some name =>
      some ⟨name, (stringOf? members "data_type" "type").getD "", nullableOf members⟩
  | _ => none

/-- The columns of the rows of a document, in order; rows without a column are passed over. -/
def allOfJson : Json → Except RequestError (List CatalogColumn)
  | .array rows => .ok (rows.filterMap ofJson?)
  | _ => .error .expectedArray

/-- The columns of a text. -/
def readAll (text : String) : Except RequestError (List CatalogColumn) :=
  match Json.read? text with
  | some json => allOfJson json
  | none => .error .invalidJson

/-- The editor for the column's values. -/
def inputType (c : CatalogColumn) : InputType := .ofType c.type

end CatalogColumn

/-! ## Fields -/

/-- A field as it is offered for rules. -/
structure FieldDescriptor where
  name : String
  label : String
  inputType : InputType
  deriving DecidableEq, Repr

namespace FieldDescriptor

/-- The field of a column of a table. -/
def ofColumn (table : String) (c : CatalogColumn) : FieldDescriptor :=
  let name := table ++ "." ++ c.name
  ⟨name, name, c.inputType⟩

/-- The fields of the columns of a table, in order. -/
def ofColumns (table : String) (columns : List CatalogColumn) : List FieldDescriptor :=
  columns.map (ofColumn table)

/-- The document of a field. -/
def toJson (f : FieldDescriptor) : Json :=
  .ofMembers [("name", .string f.name), ("label", .string f.label),
    ("inputType", .string f.inputType.name)]

/-- The document of a list of fields. -/
def listToJson (fields : List FieldDescriptor) : Json := .array (fields.map toJson)

end FieldDescriptor

end FilterSelect
