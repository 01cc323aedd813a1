import FilterSelect.Proofs.CatalogRows
import FilterSelect.Proofs.Faults
import FilterSelect.Proofs.Scoping

/-!
# Offered fields

A column of a catalog is offered to rules under the field `table.column`, and a field is split at
its first point. So the column's name may hold anything, points included. The table's name may hold
anything but a point: behind one, the rest of the name is read as part of the column's.

* `CatalogColumn.name_ne_of_mem_readAll`: every column of a catalog has a name.
* `FieldDescriptor.IsUsable`: rules on the field are about a given column of a given table.
* `FieldDescriptor.name_ofColumn_dotted`: what the field of a table with a point is read as.
* `FieldDescriptor.isUsable_ofColumn_iff`: an offered field is usable when its table has no point.
-/

namespace FilterSelect

open Sql (ColumnRef Token)

/-! ## Columns of a catalog -/

namespace CatalogColumn

/-- Rows without a name are no columns. -/
theorem name_ne_of_mem_readAll {text : String} {columns : List CatalogColumn}
    (h : readAll text = .ok columns) {column : CatalogColumn} (hmem : column ∈ columns) :
    column.name ≠ "" := by
  unfold readAll allOfJson at h
  split at h
  · split at h
    · cases h
      obtain ⟨row, -, hrow⟩ := List.mem_filterMap.mp hmem
      exact (ofJson?_eq_some_iff.mp hrow).name_ne
    · cases h
  · cases h

end CatalogColumn

/-! ## Fields as they are read -/

namespace FieldDescriptor

/-- Every rule on the field is complete, and it is about the column of the table: the quoted name
of the column behind the alias of the first table of the name. -/
def IsUsable (r : Request) (table column : String) (f : FieldDescriptor) : Prop :=
  ∀ op value, Rule.isComplete ⟨f.name, some op, value⟩ = true ∧
    ∃ ref : ColumnRef, r.scope.column f.name = .ok ref ∧
      Rule.condition r.scope ⟨f.name, some op, value⟩ =
        .ok (op.condition ref (value.getD .null)) ∧
      ∀ c : Compiler, ∃ name, r.Binds c.options table name ∧
        ref.sql c.options = name ++ "." ++ Sql.quotedName column

theorem ofText_name {table : String} {column : CatalogColumn} (h : '.' ∉ table.toList) :
    Field.ofText (ofColumn table column).name = .qualified table column.name :=
  Field.ofText_eq_qualified_iff.mpr ⟨rfl, h⟩

/-- Behind the first point of a table's name, all is read as the name of the column. -/
theorem exists_ofText_name_of_mem {table : String} {column : CatalogColumn}
    (h : '.' ∈ table.toList) : ∃ first rest : String, table = first ++ "." ++ rest ∧
      Field.ofText (ofColumn table column).name =
        .qualified first (rest ++ "." ++ column.name) := by
  cases htable : Field.ofText table with
  | bare name => exact absurd h (Field.ofText_eq_bare_iff.mp htable).2
  | qualified first rest =>
    obtain ⟨rfl, hfirst⟩ := Field.ofText_eq_qualified_iff.mp htable
    refine ⟨first, rest, rfl, Field.ofText_eq_qualified_iff.mpr ⟨?_, hfirst⟩⟩
    simp only [ofColumn, String.append_assoc]

end FieldDescriptor

/-! ## Columns as they are written -/

/-- The text of a column tells its name. -/
theorem Sql.ColumnRef.column_eq_of_sql_eq {o : Options} (ho : o.fault? = none) {a b : ColumnRef}
    (h : a.sql o = b.sql o) : a.column = b.column := by
  have ha := (a.phrase ho).lex?_eq
  rw [h, (b.phrase ho).lex?_eq] at ha
  have htokens : b.tokens o = a.tokens o := Option.some.inj ha
  simp only [tokens, List.cons.injEq, Token.name.injEq] at htokens
  exact htokens.2.2.1.symm

theorem Request.Binds.exists_source {r : Request} {o : Options} {table name : String}
    (h : r.Binds o table name) : ∃ source : Sql.Source, name = source.name o := by
  rcases h with ⟨-, rfl⟩ | ⟨-, k, -, -, rfl⟩
  · exact ⟨.primary, rfl⟩
  · exact ⟨.join k, rfl⟩

theorem Scope.exists_source?_of_knows {s : Scope} {table : String} (h : s.Knows table) :
    ∃ source, s.source? table = some source :=
  Option.ne_none_iff_exists'.mp fun hnone => Scope.source?_eq_none_iff.mp hnone h

namespace FieldDescriptor

variable {r : Request} {table : String} {column : CatalogColumn}

/-- A table without a point in its name is found, and so is the column. -/
theorem isUsable_ofColumn (ht : table ≠ "") (hc : column.name ≠ "")
    (hknown : r.scope.Knows table) (h : '.' ∉ table.toList) :
    (ofColumn table column).IsUsable r table column.name := by
  have hfield : Field.ofText (ofColumn table column).name = .qualified table column.name :=
    ofText_name h
  obtain ⟨source, hsource⟩ := Scope.exists_source?_of_knows hknown
  have hcolumn : r.scope.column (ofColumn table column).name = .ok ⟨source, column.name⟩ := by
    unfold Scope.column
    rw [hfield]
    exact bind_eq_ok_iff.mpr ⟨source, Scope.source_eq_ok_iff.mpr hsource, rfl⟩
  intro op value
  refine ⟨?_, _, hcolumn, bind_eq_ok_iff.mpr ⟨_, hcolumn, rfl⟩, fun c => ?_⟩
  · simp [Rule.isComplete, hfield, Field.isComplete, ht, hc]
  · exact ⟨source.name c.options, binds_of_source? hsource, rfl⟩

/-- With a point in the table's name, the field names a column of another name. -/
theorem not_isUsable_ofColumn (h : '.' ∈ table.toList) :
    ¬ (ofColumn table column).IsUsable r table column.name := by
  intro husable
  obtain ⟨first, rest, -, hfield⟩ := exists_ofText_name_of_mem h
  obtain ⟨-, ref, href, -, hsql⟩ := husable .isNull none
  obtain ⟨name, hbinds, hsql⟩ := hsql .standard
  obtain ⟨source, rfl⟩ := hbinds.exists_source
  have hcolumn : ref.column = column.name :=
    Sql.ColumnRef.column_eq_of_sql_eq (b := ⟨source, column.name⟩) Compiler.standard.usable hsql
  rw [Scope.column_eq_ok href, hfield] at hcolumn
  have hlength := congrArg String.length hcolumn
  have hpoint : ".".length = 1 := rfl
  simp only [Field.column, String.length_append, hpoint] at hlength
  omega

/-- A column of a table that a request queries or joins is offered under a usable field exactly when
the table's name has no point: then the rules on the field are complete, and their conditions are
about this column. Columns that are read from a catalog all have the name that this takes. -/
theorem isUsable_ofColumn_iff (ht : table ≠ "") (hknown : r.scope.Knows table) :
    (∀ column : CatalogColumn, column.name ≠ "" →
      ((ofColumn table column).IsUsable r table column.name ↔ '.' ∉ table.toList)) ∧
    ∀ text columns, CatalogColumn.readAll text = .ok columns →
      ∀ column ∈ columns, column.name ≠ "" := by
  refine ⟨fun column hc => ⟨fun husable h => not_isUsable_ofColumn h husable,
    isUsable_ofColumn ht hc hknown⟩, fun text columns hread column hmem => ?_⟩
  exact CatalogColumn.name_ne_of_mem_readAll hread hmem

theorem isUsable_ofColumn_city : "city" ≠ "" ∧ Request.selfJoin.scope.Knows "city" ∧
    (ofColumn "city" ⟨"name.\"de\"", "text", true⟩).IsUsable .selfJoin "city" "name.\"de\"" := by
  have ht : "city" ≠ "" := by decide
  have hknown : Request.selfJoin.scope.Knows "city" := by decide +kernel
  exact ⟨ht, hknown, ((isUsable_ofColumn_iff ht hknown).1 ⟨"name.\"de\"", "text", true⟩
    (by decide)).mpr (by decide +kernel)⟩

end FieldDescriptor

/-- A request for a table with a point in its name, by a field that is offered for it. -/
def Request.dotted : Request where
  table := "a.b"
  filter := ⟨.and, [.rule ⟨(FieldDescriptor.ofColumn "a.b" ⟨"c", "text", false⟩).name,
    some .isNull, none⟩]⟩

/-- The field of a table with a point in its name is that of a table of another name. -/
theorem FieldDescriptor.not_isUsable_dotted : Request.dotted.scope.Knows "a.b" ∧
    ¬ (ofColumn "a.b" ⟨"c", "text", false⟩).IsUsable .dotted "a.b" "c" ∧
    Compiler.standard.compileFilter .dotted =
      .error (.unknownTable "a" (.filterField "a.b.c")) :=
  ⟨.inl rfl, not_isUsable_ofColumn (by decide +kernel), by rfl⟩

end FilterSelect
