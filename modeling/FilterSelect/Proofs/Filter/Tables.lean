import FilterSelect.Proofs.Filter.Rules
import Mathlib.Data.List.TakeWhile

/-!
# The tables of a request that compiles

When a request compiles, every table it names is found, so its statement can be told without
faults: which table each name stands for, and what the statement shows.

* `Scope.tableOf`, `Scope.fieldTable`: the table of a name, and that of a field.
* `Request.select_eq_ok_iff`: the parts of the statement of a request.
-/

namespace FilterSelect

open Sql (ColumnRef OutputColumn Source)

namespace Scope

/-- The table of a name, where the empty name is the queried table's. -/
def tableOf (s : Scope) (table : String) : Source :=
  if table = "" then .primary else (s.source? table).getD .primary

/-- The table of a field. -/
def fieldTable (s : Scope) (field : String) : Source :=
  match Field.ofText field with
  | .bare _ => .primary
  | .qualified table _ => (s.source? table).getD .primary

end Scope

/-- The column that a field names. -/
def Field.column : Field → String
  | .bare column => column
  | .qualified _ column => column

/-- The name under which a selected column is shown. -/
def SelectedColumn.shownAs (c : SelectedColumn) : String :=
  if c.output = "" then c.column else c.output

/-- The shown column of a selected one. -/
def SelectedColumn.shown (s : Scope) (c : SelectedColumn) : OutputColumn :=
  ⟨⟨s.tableOf c.table, c.column⟩, c.shownAs⟩

/-! ## Fields -/

/-- Only the first point of a field separates. -/
theorem Field.ofText_eq_qualified_iff {text table column : String} :
    Field.ofText text = .qualified table column ↔
      text = table ++ "." ++ column ∧ '.' ∉ table.toList := by
  have hpoint : ".".toList = ['.'] := rfl
  unfold ofText
  constructor
  · intro h
    split at h
    · cases h
    · rename_i c cs hdrop
      cases h
      have hc : c = '.' := by
        have hhead := List.head?_dropWhile_not (· ≠ '.') text.toList
        rw [hdrop] at hhead
        simpa using hhead
      subst hc
      refine ⟨?_, ?_⟩
      · rw [← String.toList_inj, String.toList_append, String.toList_append, hpoint,
          String.toList_ofList, String.toList_ofList, List.append_assoc, List.singleton_append,
          ← hdrop, List.takeWhile_append_dropWhile]
      · rw [String.toList_ofList]
        intro hmem
        simpa using List.all_eq_true.mp List.all_takeWhile _ hmem
  · rintro ⟨rfl, hnot⟩
    have htable : ∀ c ∈ table.toList, (decide (c ≠ '.')) = true := fun c hc => by
      simpa using fun he : c = '.' => hnot (he ▸ hc)
    have hrest : ∀ c ∈ ('.' :: column.toList).head?, (decide (c ≠ '.')) = false := by simp
    rw [String.toList_append, String.toList_append, hpoint, List.append_assoc,
      List.singleton_append, dropWhile_append_eq htable hrest, takeWhile_append_eq htable hrest]
    simp

theorem Field.ofText_eq_bare_iff {text column : String} :
    Field.ofText text = .bare column ↔ column = text ∧ '.' ∉ text.toList := by
  unfold ofText
  constructor
  · intro h
    split at h
    · rename_i hdrop
      cases h
      refine ⟨rfl, fun hmem => ?_⟩
      simpa using List.dropWhile_eq_nil_iff.mp hdrop '.' hmem
    · cases h
  · rintro ⟨rfl, hnot⟩
    have hdrop : column.toList.dropWhile (· ≠ '.') = [] := by
      rw [List.dropWhile_eq_nil_iff]
      intro c hc
      simpa using fun he : c = '.' => hnot (he ▸ hc)
    rw [hdrop]

/-! ## Tables that are found -/

section Found

variable {s : Scope}

theorem Scope.source_eq_ok_iff {table : String} {use : TableUse} {source : Source} :
    s.source table use = .ok source ↔ s.source? table = some source := by
  unfold Scope.source
  split
  · rename_i h
    simp [h]
  · rename_i h
    simp [h]

theorem Scope.column_eq_ok {field : String} {c : ColumnRef} (h : s.column field = .ok c) :
    c = ⟨s.fieldTable field, (Field.ofText field).column⟩ := by
  unfold column at h
  unfold fieldTable
  cases hfield : Field.ofText field with
  | bare column =>
    rw [hfield] at h
    cases h
    rfl
  | qualified table column =>
    rw [hfield] at h
    obtain ⟨source, hs, h⟩ := bind_eq_ok_iff.mp h
    cases h
    simp [Scope.source_eq_ok_iff.mp hs, Field.column]

theorem Scope.tableOf_of_source {table : String} {use : TableUse} {source : Source}
    (h : s.source (if table = "" then s.table else table) use = .ok source) :
    s.tableOf table = source := by
  rw [Scope.source_eq_ok_iff] at h
  unfold tableOf
  split at h
  · rename_i ht
    rw [if_pos ht]
    simpa [source?] using h
  · rename_i ht
    rw [if_neg ht, h]
    rfl

/-- One more column is shown when it has a name and its table is found. -/
theorem outputColumns_cons_eq_ok_iff {position : Nat} {c : SelectedColumn}
    {cs : List SelectedColumn} {list : List OutputColumn} :
    outputColumns s position (c :: cs) = .ok list ↔
      c.column ≠ "" ∧
        ∃ source rest, s.source (if c.table = "" then s.table else c.table)
            (.selectedColumn c.column) = .ok source ∧
          outputColumns s (position + 1) cs = .ok rest ∧
          list = ⟨⟨source, c.column⟩, c.shownAs⟩ :: rest := by
  rw [outputColumns]
  by_cases hc : c.column = ""
  · simp [hc, bind, Except.bind]
  · simp only [hc, if_false, ne_eq, not_false_eq_true, true_and]
    constructor
    · intro h
      obtain ⟨-, -, h⟩ := bind_eq_ok_iff.mp h
      obtain ⟨source, hs, h⟩ := bind_eq_ok_iff.mp h
      obtain ⟨rest, hr, h⟩ := bind_eq_ok_iff.mp h
      cases h
      exact ⟨source, rest, hs, hr, rfl⟩
    · rintro ⟨source, rest, hs, hr, rfl⟩
      rw [hs, hr]
      rfl

theorem outputColumns_eq_ok {position : Nat} {cs : List SelectedColumn} {list : List OutputColumn}
    (h : outputColumns s position cs = .ok list) : list = cs.map (SelectedColumn.shown s) := by
  induction cs generalizing position list with
  | nil =>
    cases h
    rfl
  | cons c cs ih =>
    obtain ⟨-, source, rest, hs, hr, rfl⟩ := outputColumns_cons_eq_ok_iff.mp h
    rw [List.map_cons, ← ih hr, SelectedColumn.shown, Scope.tableOf_of_source hs]

end Found

namespace Request

/-- What the statement of a request shows, if all its tables are found. -/
def shown (r : Request) : Sql.Projection :=
  if r.columns.isEmpty then .everything
  else .columns (r.columns.map (SelectedColumn.shown r.scope))

theorem projection_eq_ok {r : Request} {p : Sql.Projection} (h : r.projection = .ok p) :
    p = r.shown := by
  unfold projection at h
  unfold shown
  split at h
  · rename_i hc
    cases h
    rw [if_pos hc]
  · rename_i hc
    obtain ⟨list, hl, rfl⟩ := map_eq_ok_iff.mp h
    rw [if_neg hc, outputColumns_eq_ok hl]

/-- A request compiles when each of its parts does. -/
theorem select_eq_ok_iff {r : Request} {s : Sql.Select} :
    r.select = .ok s ↔ r.table ≠ "" ∧ checkJoins 0 r.joins = .ok () ∧
      r.projection = .ok s.projection ∧ r.filter.condition r.scope = .ok s.condition ∧
      s.table = r.table ∧ s.joins = r.joins := by
  unfold select
  by_cases ht : r.table = ""
  · simp [ht, bind, Except.bind]
  · simp only [ht, if_false, ne_eq, not_false_eq_true, true_and]
    constructor
    · intro h
      obtain ⟨⟨⟩, hj, h⟩ := bind_eq_ok_iff.mp h
      obtain ⟨projection, hp, h⟩ := bind_eq_ok_iff.mp h
      obtain ⟨condition, hw, h⟩ := bind_eq_ok_iff.mp h
      cases h
      exact ⟨hj, hp, hw, rfl, rfl⟩
    · rintro ⟨hj, hp, hw, htable, hjoins⟩
      cases s
      cases htable
      cases hjoins
      rw [hj, hp, hw]
      rfl

end Request

end FilterSelect
