import FilterSelect.Proofs.Filter.Tables
import FilterSelect.Proofs.Sql.Blank
import FilterSelect.Proofs.Sql.Statement

/-!
# Different requests have different statements

The text of a statement tells what it is the statement of. Read as tokens it gives back the table,
the joins and the shown columns, whatever their names hold, and what these have in common is the
same head; so the text of the condition is what remains. Two requests share a statement only if they
differ in how they spell what they show, or in rules that no statement has.

* `Sql.Label`, `Projection.labels`: a shown column with its alias.
* `shownLabels?_tokens`: the shown columns can be read off the tokens of a projection.
* `Sql.Select.sql_injective`: the parts of a statement can be told from its text.
* `Request.labels`: the columns that a request shows.
* `Compiler.compile_injective`: the parts of a request can be told from its statement.
-/

namespace FilterSelect

namespace Sql

/-! ## Shown columns -/

/-- A column as it is shown: the alias of its table, its name, and the name that it gets. -/
structure Label where
  qualifier : String
  column : String
  output : String
  deriving DecidableEq, Repr

/-- The shown column with the alias of its table. -/
def OutputColumn.label (o : Options) (c : OutputColumn) : Label :=
  ⟨c.column.source.name o, c.column.column, c.output⟩

/-- The shown columns of a projection; none when it shows all columns. -/
def Projection.labels (o : Options) : Projection → Option (List Label)
  | .everything => none
  | .columns list => some (list.map (OutputColumn.label o))

/-- The shown columns in a list of tokens. -/
def labels : List Token → List Label
  | .word name :: .punct '.' :: .name column :: .word _ :: .name output :: rest =>
    ⟨name, column, output⟩ :: labels rest
  | _ :: rest => labels rest
  | [] => []

/-- The shown columns of the tokens of a projection; none behind the star that shows all columns. -/
def shownLabels? : List Token → Option (List Label)
  | .word _ :: .punct '.' :: .punct '*' :: _ => none
  | ts => some (labels ts)

section

variable (o : Options)

theorem labels_column (c : OutputColumn) (rest : List Token) :
    labels (c.tokens o ++ rest) = c.label o :: labels rest := rfl

theorem labels_comma (rest : List Token) : labels (.punct ',' :: rest) = labels rest := rfl

theorem labels_columns (list : List OutputColumn) :
    labels ([Token.punct ','].intercalate (list.map (OutputColumn.tokens o))) =
      list.map (OutputColumn.label o) := by
  induction list with
  | nil => rfl
  | cons c cs ih =>
    cases cs with
    | nil => exact labels_column o c []
    | cons d ds =>
      rw [List.map_cons, List.map_cons, List.intercalate_cons_cons, List.append_assoc,
        labels_column, List.singleton_append, labels_comma, ← List.map_cons, ih]
      rfl

/-- The shown columns can be read off the tokens of a projection. -/
theorem shownLabels?_tokens (n : Nat) (p : Projection) :
    shownLabels? (p.tokens o n) = p.labels o := by
  cases p with
  | everything =>
    rw [Projection.tokens, List.map_cons]
    cases (List.range n).map Source.join with
    | nil => rfl
    | cons s ss =>
      rw [List.map_cons, List.intercalate_cons_cons]
      rfl
  | columns list =>
    rw [Projection.tokens, Projection.labels, ← labels_columns]
    cases list with
    | nil => rfl
    | cons c cs =>
      cases cs with
      | nil => rfl
      | cons d ds =>
        rw [List.map_cons, List.map_cons, List.intercalate_cons_cons]
        rfl

/-- The text of a projection depends on its shown columns alone. -/
theorem Projection.sql_congr {p q : Projection} (h : p.labels o = q.labels o) (n : Nat) :
    p.sql o n = q.sql o n := by
  have hcolumn (c : OutputColumn) : c.sql o =
      (c.label o).qualifier ++ "." ++ quotedName (c.label o).column ++ " AS " ++
        quotedName (c.label o).output := rfl
  cases p with
  | everything =>
    cases q with
    | everything => rfl
    | columns list => cases h
  | columns list =>
    cases q with
    | everything => cases h
    | columns list' =>
      have hlist := congrArg (List.map fun l : Label =>
        l.qualifier ++ "." ++ quotedName l.column ++ " AS " ++ quotedName l.output) (Option.some.inj h)
      rw [List.map_map, List.map_map] at hlist
      have htexts : list.map (OutputColumn.sql o) = list'.map (OutputColumn.sql o) := hlist
      rw [Projection.sql, Projection.sql, htexts]

end

/-! ## Statements -/

/-- The join that was read. -/
def JoinItem.join (item : JoinItem) : Join :=
  ⟨item.type, item.table, item.left.column.getD "", item.right.column.getD ""⟩

namespace Select

variable {o : Options} {s t : Select}

theorem joins_parts (s : Select) : (s.parts o).joins.map JoinItem.join = s.joins := by
  have hread : ((s.joins.zipIdx.map fun x => joinItem o x.2 x.1).map JoinItem.join) =
      s.joins.zipIdx.map Prod.fst := by
    rw [List.map_map]
    rfl
  exact hread.trans (List.zipIdx_map_fst 0 s.joins)

theorem headSql_congr (htable : s.table = t.table) (hjoins : s.joins = t.joins)
    (hshown : s.projection.labels o = t.projection.labels o) : s.headSql o = t.headSql o := by
  unfold headSql
  rw [htable, hjoins, Projection.sql_congr o hshown]

/-- The table, the joins, the shown columns and the text of the condition of a statement can be told
from its text. -/
theorem sql_injective (ho : o.fault? = none) (hs : s.condition.IsPlain) (ht : t.condition.IsPlain)
    (h : s.sql o = t.sql o) : s.table = t.table ∧ s.joins = t.joins ∧
      s.projection.labels o = t.projection.labels o ∧ s.condition.sql o = t.condition.sql o := by
  have htokens : s.tokens o = t.tokens o := by
    have hlex := (Select.phrase ho hs).lex?_eq
    rw [h, (Select.phrase ho ht).lex?_eq] at hlex
    exact (Option.some.inj hlex).symm
  have hparts : s.parts o = t.parts o := by
    have hread := statement?_tokens ho s
    rw [htokens, statement?_tokens ho t] at hread
    exact (Option.some.inj hread).symm
  have htable : s.table = t.table := congrArg Statement.table hparts
  have hjoins : s.joins = t.joins := by
    rw [← joins_parts (o := o) s, hparts, joins_parts]
  have hshown : s.projection.labels o = t.projection.labels o := by
    have hlabels := congrArg (fun x => shownLabels? x.shown) hparts
    simpa only [Select.parts, shownLabels?_tokens] using hlabels
  refine ⟨htable, hjoins, hshown, ?_⟩
  -- The heads are the same text, so what stands behind them is the same too.
  rw [sql_eq_append, sql_eq_append, headSql_congr htable hjoins hshown] at h
  exact whereSql_injective (String.append_right_inj _ |>.mp h)

end Select

end Sql

/-! ## Requests -/

/-- A selected column with the alias of its table; without a name of its own it keeps the
column's. -/
def SelectedColumn.label (s : Scope) (o : Options) (c : SelectedColumn) : Sql.Label :=
  ⟨(s.tableOf c.table).name o, c.column, if c.output = "" then c.column else c.output⟩

/-- The columns that a request shows; none when it shows all columns of all its tables. -/
def Request.labels (r : Request) (o : Options) : Option (List Sql.Label) :=
  if r.columns = [] then none else some (r.columns.map (SelectedColumn.label r.scope o))

theorem Request.labels_shown (r : Request) (o : Options) : r.shown.labels o = r.labels o := by
  unfold shown labels
  by_cases hc : r.columns = []
  · rw [if_pos (List.isEmpty_iff.mpr hc), if_pos hc]
    rfl
  · rw [if_neg (mt List.isEmpty_iff.mp hc), if_neg hc, Sql.Projection.labels, List.map_map]
    rfl

/-- Two requests that have the same statement ask for the same table and the same joins, show the
same columns, and have the same text for their filters. -/
theorem Compiler.compile_injective {c : Compiler} {r t : Request} {sql : String}
    (hr : c.compile r = .ok sql) (ht : c.compile t = .ok sql) :
    r.table = t.table ∧ r.joins = t.joins ∧ r.labels c.options = t.labels c.options ∧
      ∃ condition, c.compileFilter r = .ok condition ∧ c.compileFilter t = .ok condition := by
  obtain ⟨x, hx, rfl⟩ := map_eq_ok_iff.mp hr
  obtain ⟨y, hy, hsql⟩ := map_eq_ok_iff.mp ht
  obtain ⟨-, -, hp, hw, htable, hjoins⟩ := Request.select_eq_ok_iff.mp hx
  obtain ⟨-, -, hp', hw', htable', hjoins'⟩ := Request.select_eq_ok_iff.mp hy
  obtain ⟨h₁, h₂, h₃, h₄⟩ := Sql.Select.sql_injective c.usable (Group.isPlain_condition hw)
    (Group.isPlain_condition hw') hsql.symm
  rw [htable, htable'] at h₁
  rw [hjoins, hjoins'] at h₂
  rw [Request.projection_eq_ok hp, Request.projection_eq_ok hp', Request.labels_shown,
    Request.labels_shown] at h₃
  exact ⟨h₁, h₂, h₃, _, map_eq_ok_iff.mpr ⟨_, hw, rfl⟩, map_eq_ok_iff.mpr ⟨_, hw', h₄.symm⟩⟩

/-- A request with its columns, values and rules in their shortest form. -/
def Request.terse : Request where
  table := "person"
  joins := [⟨.left, "city", "home", "id"⟩]
  columns := [⟨"", "name", ""⟩, ⟨"city", "name", " AS "⟩]
  filter := ⟨.and, [.rule ⟨"age", some .less, some (.int 30)⟩]⟩

/-- The same request in more words. -/
def Request.verbose : Request where
  table := "person"
  joins := [⟨.left, "city", "home", "id"⟩]
  columns := [⟨"person", "name", "name"⟩, ⟨"city", "name", " AS "⟩]
  filter := ⟨.and, [.group .or [.rule ⟨"name", none, none⟩],
    .rule ⟨"person.age", some .less, some (.text " 30.0")⟩]⟩

theorem Compiler.compile_injective_verbose : Request.terse.columns ≠ Request.verbose.columns ∧
    ∃ sql, standard.compile .terse = .ok sql ∧ standard.compile .verbose = .ok sql ∧
      Request.terse.joins = Request.verbose.joins ∧
      Request.terse.labels {} = Request.verbose.labels {} ∧
      ∃ condition, standard.compileFilter .terse = .ok condition ∧
        standard.compileFilter .verbose = .ok condition := by
  obtain ⟨sql, hterse⟩ : ∃ sql, standard.compile .terse = .ok sql := ⟨_, rfl⟩
  have hverbose : standard.compile .verbose = .ok sql := by
    rw [← hterse]
    decide +kernel
  obtain ⟨-, hjoins, hlabels, hfilter⟩ := compile_injective hterse hverbose
  exact ⟨by decide, sql, hterse, hverbose, hjoins, hlabels, hfilter⟩

end FilterSelect
