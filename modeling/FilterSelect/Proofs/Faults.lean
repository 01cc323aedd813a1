import FilterSelect.Proofs.Filter.Tables

/-!
# What stops a request from being compiled

All faults of a request can be listed without compiling it: a missing table, then the faults of its
joins, of its selected columns, and of the complete rules of its filter, each list from the first to
the last. A request compiles when the list is empty, and otherwise the first fault of the list is
reported. Rules that are not complete have no faults, whatever they name.

* `Request.faults`, `Group.faults`: the faults of a request, and of a filter.
* `Request.IsSound`: what a request needs to have no fault.
* `fault?_select`: compiling reports the first fault.
* `Compiler.compile_faults`: when compiling fails, and with which fault.
-/

namespace FilterSelect

/-! ## The faults of a request -/

/-- The table is queried or joined. -/
def Scope.Knows (s : Scope) (table : String) : Prop :=
  table = s.table ∨ ∃ j ∈ s.joins, j.targetTable = table

instance (s : Scope) (table : String) : Decidable (s.Knows table) :=
  inferInstanceAs (Decidable (_ ∨ _))

/-- The parts of a join with their names. -/
def Join.parts (j : Join) : List (JoinPart × String) :=
  [(.targetTable, j.targetTable), (.sourceColumn, j.sourceColumn), (.targetColumn, j.targetColumn)]

/-- The faults of the join at a position: the parts it lacks. -/
def Join.faults (position : Nat) (j : Join) : List CompileError :=
  (j.parts.filter fun part => part.2 = "").map fun part =>
    .incompleteJoin position j.targetTable part.1

/-- The faults of the selected column at a position: it has no name, or its table is not known. -/
def SelectedColumn.faults (s : Scope) (position : Nat) (c : SelectedColumn) : List CompileError :=
  (if c.column = "" then [.incompleteColumn position] else []) ++
    if c.table = "" ∨ s.Knows c.table then []
    else [.unknownTable c.table (.selectedColumn c.column)]

/-- The fault of a rule: the table of its field is not known. -/
def Rule.faults (s : Scope) (r : Rule) : List CompileError :=
  match Field.ofText r.field with
  | .bare _ => []
  | .qualified table _ =>
    if s.Knows table then [] else [.unknownTable table (.filterField r.field)]

/-- The faults of a filter. -/
def Group.faults (s : Scope) (g : Group) : List CompileError :=
  g.completeRules.flatMap (Rule.faults s)

/-- The faults of a request. -/
def Request.faults (r : Request) : List CompileError :=
  (if r.table = "" then [.missingTable] else []) ++
    r.joins.zipIdx.flatMap (fun (j, position) => j.faults position) ++
    r.columns.zipIdx.flatMap (fun (c, position) => c.faults r.scope position) ++
    r.filter.faults r.scope

/-! ## Requests without faults -/

/-- The table in front of the first point of the field, if it has one, is known. -/
def Rule.IsResolved (s : Scope) (r : Rule) : Prop :=
  ∀ table column : String, r.field = table ++ "." ++ column → '.' ∉ table.toList → s.Knows table

/-- The request has a table, its joins have all their parts, its selected columns have names and
known tables, and so do the fields of its complete rules. -/
structure Request.IsSound (r : Request) : Prop where
  table : r.table ≠ ""
  joins : ∀ j ∈ r.joins, j.targetTable ≠ "" ∧ j.sourceColumn ≠ "" ∧ j.targetColumn ≠ ""
  columns : ∀ c ∈ r.columns, c.column ≠ "" ∧ (c.table = "" ∨ r.scope.Knows c.table)
  rules : ∀ x ∈ r.filter.completeRules, x.IsResolved r.scope

theorem Rule.faults_eq_nil_iff {s : Scope} {r : Rule} : r.faults s = [] ↔ r.IsResolved s := by
  unfold faults IsResolved
  cases h : Field.ofText r.field with
  | bare column =>
    refine ⟨fun _ table column hfield hnot => ?_, fun _ => rfl⟩
    have hqualified := Field.ofText_eq_qualified_iff.mpr ⟨hfield, hnot⟩
    rw [h] at hqualified
    cases hqualified
  | qualified table column =>
    obtain ⟨hfield, hnot⟩ := Field.ofText_eq_qualified_iff.mp h
    constructor
    · intro hnil table' column' hfield' hnot'
      have hqualified := Field.ofText_eq_qualified_iff.mpr ⟨hfield', hnot'⟩
      rw [h] at hqualified
      cases hqualified
      by_contra hknown
      simp [hknown] at hnil
    · intro hresolved
      simp [hresolved table column hfield hnot]

theorem Join.faults_eq_nil_iff (position : Nat) (j : Join) : j.faults position = [] ↔
    j.targetTable ≠ "" ∧ j.sourceColumn ≠ "" ∧ j.targetColumn ≠ "" := by
  simp [faults, parts, List.filter_eq_nil_iff]

theorem SelectedColumn.faults_eq_nil_iff (s : Scope) (position : Nat) (c : SelectedColumn) :
    c.faults s position = [] ↔ c.column ≠ "" ∧ (c.table = "" ∨ s.Knows c.table) := by
  unfold faults
  rw [List.append_eq_nil_iff]
  by_cases hc : c.column = "" <;> by_cases ht : c.table = "" ∨ s.Knows c.table <;> simp [hc, ht]

theorem Group.faults_eq_nil_iff {s : Scope} {g : Group} :
    g.faults s = [] ↔ ∀ x ∈ g.completeRules, x.IsResolved s := by
  simp [faults, List.flatMap_eq_nil_iff, Rule.faults_eq_nil_iff]

/-- Parts at positions have no fault when no part has one, wherever it stands. -/
theorem flatMap_zipIdx_eq_nil_iff {α : Type} {faults : Nat → α → List CompileError}
    {p : α → Prop} (h : ∀ i x, faults i x = [] ↔ p x) (k : Nat) (xs : List α) :
    (xs.zipIdx k).flatMap (fun (x, i) => faults i x) = [] ↔ ∀ x ∈ xs, p x := by
  induction xs generalizing k with
  | nil => simp
  | cons x xs ih =>
    rw [List.zipIdx_cons, List.flatMap_cons, List.append_eq_nil_iff, ih, h, List.forall_mem_cons]

theorem Request.faults_eq_nil_iff {r : Request} : r.faults = [] ↔ r.IsSound := by
  have hjoins := flatMap_zipIdx_eq_nil_iff Join.faults_eq_nil_iff 0 r.joins
  have hcolumns := flatMap_zipIdx_eq_nil_iff (SelectedColumn.faults_eq_nil_iff r.scope) 0 r.columns
  have htable : (if r.table = "" then [CompileError.missingTable] else []) = [] ↔ r.table ≠ "" := by
    simp
  unfold faults
  rw [List.append_eq_nil_iff, List.append_eq_nil_iff, List.append_eq_nil_iff, htable, hjoins,
    hcolumns, Group.faults_eq_nil_iff]
  constructor
  · rintro ⟨⟨⟨ht, hj⟩, hc⟩, hr⟩
    exact ⟨ht, hj, hc, hr⟩
  · rintro ⟨ht, hj, hc, hr⟩
    exact ⟨⟨⟨ht, hj⟩, hc⟩, hr⟩

/-! ## The first fault -/

theorem Scope.source?_eq_none_iff {s : Scope} {table : String} :
    s.source? table = none ↔ ¬ s.Knows table := by
  unfold source? Knows
  by_cases ht : table = s.table
  · simp [ht]
  · simp [ht]

/-- A table that is not known is a fault wherever it is named. -/
theorem Scope.fault?_source (s : Scope) (table : String) (use : TableUse) :
    fault? (s.source table use) =
      if s.Knows table then none else some (.unknownTable table use) := by
  unfold source
  cases h : s.source? table with
  | none =>
    rw [if_neg (Scope.source?_eq_none_iff.mp h)]
    rfl
  | some source =>
    have hknows : s.Knows table := by
      by_contra hnot
      rw [Scope.source?_eq_none_iff.mpr hnot] at h
      cases h
    rw [if_pos hknows]
    rfl

theorem Rule.fault?_condition (s : Scope) (r : Rule) :
    fault? (r.condition s) = (r.faults s).head? := by
  have hcolumn : fault? (r.condition s) = fault? (s.column r.field) :=
    fault?_bind_of_ok fun column => rfl
  rw [hcolumn]
  unfold Scope.column faults
  cases Field.ofText r.field with
  | bare column => rfl
  | qualified table column =>
    have hsource : fault? (do
        let source ← s.source table (.filterField r.field)
        .ok (⟨source, column⟩ : Sql.ColumnRef)) = fault? (s.source table (.filterField r.field)) :=
      fault?_bind_of_ok fun source => rfl
    refine hsource.trans ?_
    rw [Scope.fault?_source]
    by_cases h : s.Knows table <;> simp [h]

/-- Compiling a filter reports the first fault of its complete rules. -/
theorem Group.fault?_condition (s : Scope) (g : Group) :
    fault? (g.condition s) = (g.faults s).head? := by
  have hrules := fault?_mapM (Rule.fault?_condition s) g.completeRules
  rwa [Group.mapM_completeRules, fault?_map] at hrules

theorem Join.fault?_missing (position : Nat) (j : Join) :
    (j.missing?.map fun part => CompileError.incompleteJoin position j.targetTable part) =
      (j.faults position).head? := by
  unfold missing? faults parts
  by_cases h₁ : j.targetTable = ""
  · simp [h₁]
  by_cases h₂ : j.sourceColumn = ""
  · simp [h₁, h₂]
  by_cases h₃ : j.targetColumn = ""
  · simp [h₁, h₂, h₃]
  · simp [h₁, h₂, h₃]

theorem fault?_checkJoins (position : Nat) (js : List Join) : fault? (checkJoins position js) =
    ((js.zipIdx position).flatMap fun (j, i) => j.faults i).head? := by
  induction js generalizing position with
  | nil => rfl
  | cons j js ih =>
    rw [checkJoins, List.zipIdx_cons, List.flatMap_cons, List.head?_append,
      ← Join.fault?_missing]
    cases j.missing? with
    | none => exact ih (position + 1)
    | some part => rfl

/-- The table of a selected column is a fault when it is not known; the empty one always is. -/
theorem SelectedColumn.fault?_source (s : Scope) (c : SelectedColumn) :
    fault? (s.source (if c.table = "" then s.table else c.table) (.selectedColumn c.column)) =
      if c.table = "" ∨ s.Knows c.table then none
      else some (.unknownTable c.table (.selectedColumn c.column)) := by
  rw [Scope.fault?_source]
  by_cases ht : c.table = ""
  · have hknows : s.Knows s.table := .inl rfl
    simp [ht, hknows]
  · simp [ht]

theorem fault?_outputColumns (s : Scope) (position : Nat) (cs : List SelectedColumn) :
    fault? (outputColumns s position cs) =
      ((cs.zipIdx position).flatMap fun (c, i) => c.faults s i).head? := by
  induction cs generalizing position with
  | nil => rfl
  | cons c cs ih =>
    rw [outputColumns, List.zipIdx_cons, List.flatMap_cons, List.head?_append, ← ih]
    by_cases hc : c.column = ""
    · simp [hc, SelectedColumn.faults, bind, Except.bind, fault?]
    · have hfaults : (c.faults s position).head? = fault? (s.source
          (if c.table = "" then s.table else c.table) (.selectedColumn c.column)) := by
        rw [SelectedColumn.fault?_source, SelectedColumn.faults, if_neg hc, List.nil_append]
        by_cases ht : c.table = "" ∨ s.Knows c.table <;> simp [ht]
      rw [hfaults, if_neg hc]
      exact fault?_bind fun source => fault?_bind_of_ok fun rest => rfl

theorem Request.fault?_projection (r : Request) : fault? r.projection =
    (r.columns.zipIdx.flatMap fun (c, position) => c.faults r.scope position).head? := by
  unfold projection
  by_cases hc : r.columns = []
  · simp [hc, fault?]
  · rw [if_neg (by simpa using hc), fault?_map, fault?_outputColumns]

/-- Compiling a request reports its first fault. -/
theorem Request.fault?_select (r : Request) : fault? r.select = r.faults.head? := by
  unfold select faults
  rw [List.append_assoc, List.append_assoc, List.head?_append, List.head?_append,
    List.head?_append, ← fault?_checkJoins, ← Request.fault?_projection, ← Group.fault?_condition]
  by_cases ht : r.table = ""
  · simp [ht, bind, Except.bind, fault?]
  · rw [if_neg ht, if_neg ht]
    exact fault?_bind fun _ => fault?_bind fun projection => fault?_bind_of_ok fun condition => rfl

/-- Only a request without faults has a statement. -/
theorem Request.isSound_of_select {r : Request} {s : Sql.Select} (h : r.select = .ok s) :
    r.IsSound := by
  rw [← Request.faults_eq_nil_iff, ← List.head?_eq_none_iff, ← Request.fault?_select, h]
  rfl

/-! ## The compiler -/

/-- A request compiles exactly when it is sound, and otherwise its first fault is reported: of its
table, its joins, its selected columns and its complete rules, in this order. Its filter alone
compiles exactly when the fields of its complete rules have known tables, and otherwise the first
of them that has none is reported. -/
theorem Compiler.compile_faults (c : Compiler) (r : Request) :
    ((∃ sql, c.compile r = .ok sql) ↔ r.IsSound) ∧
    (∀ e, c.compile r = .error e ↔ r.faults.head? = some e) ∧
    ((∃ sql, c.compileFilter r = .ok sql) ↔
      ∀ x ∈ r.filter.completeRules, x.IsResolved r.scope) ∧
    (∀ e, c.compileFilter r = .error e ↔ (r.filter.faults r.scope).head? = some e) := by
  have hcompile : fault? (c.compile r) = r.faults.head? :=
    (fault?_map _ _).trans r.fault?_select
  have hfilter : fault? (c.compileFilter r) = (r.filter.faults r.scope).head? :=
    (fault?_map _ _).trans (r.filter.fault?_condition r.scope)
  refine ⟨?_, fun e => ?_, ?_, fun e => ?_⟩
  · rw [← fault?_eq_none_iff, hcompile, List.head?_eq_none_iff, Request.faults_eq_nil_iff]
  · rw [← fault?_eq_some_iff, hcompile]
  · rw [← fault?_eq_none_iff, hfilter, List.head?_eq_none_iff, Group.faults_eq_nil_iff]
  · rw [← fault?_eq_some_iff, hfilter]

-- Of two rules with an unknown table, only the complete one is a fault.
example : Compiler.standard.compileFilter
    { filter := ⟨.and, [.rule ⟨"ghost.", some .equal, none⟩, .group .or
      [.rule ⟨"ghost.a", some .isNull, none⟩]]⟩ } =
      .error (.unknownTable "ghost" (.filterField "ghost.a")) := rfl

end FilterSelect
