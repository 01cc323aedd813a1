import FilterSelect.Proofs.Filter.Tables
import FilterSelect.Proofs.Sql.Statement

/-!
# Aliases and what they stand for

A statement names its tables in three places: where it binds them, where it joins them, and where
it refers to their columns. The places agree. No two aliases are the same in any letter case, every
reference is to an alias that is bound, and it is the one of the first table with the name that the
request uses.

* `Request.Binds`: the alias of the first table of a name.
* `SelectedColumn.RefersBy`, `Rule.RefersBy`: how a selected column and a rule name their columns.
* `nodup_names`: the aliases of a statement are distinct in any letter case.
* `Compiler.compile_scoped`: the aliases and references of the text of a statement.
-/

namespace FilterSelect

open Sql (ColumnRef Condition Reference Source joinAlias)

/-! ## Aliases are distinct -/

theorem toNat_toLower (c : Char) :
    c.toLower.toNat = if 65 ≤ c.toNat ∧ c.toNat ≤ 90 then c.toNat + 32 else c.toNat := by
  have hupper : (c.val ≥ 'A'.val ∧ c.val ≤ 'Z'.val) ↔ 65 ≤ c.toNat ∧ c.toNat ≤ 90 := by
    simp [UInt32.le_iff_toNat_le]
  unfold Char.toLower
  split
  · rename_i h
    rw [if_pos (hupper.mp h)]
    have hle := (hupper.mp h).2
    show (c.val + ('a'.val - 'A'.val)).toNat = c.val.toNat + 32
    have hshift : ('a'.val - 'A'.val).toNat = 32 := by decide
    rw [UInt32.toNat_add, hshift]
    have : c.val.toNat ≤ 90 := hle
    omega
  · rename_i h
    rw [if_neg (mt hupper.mpr h)]

theorem isDigit_toLower (c : Char) : c.toLower.isDigit = c.isDigit := by
  rw [Bool.eq_iff_iff, Sql.isDigit_iff, Sql.isDigit_iff, toNat_toLower]
  split <;> omega

theorem toLower_of_isDigit {c : Char} (h : c.isDigit = true) : c.toLower = c := by
  rw [Sql.isDigit_iff] at h
  rw [← Char.toNat_inj, toNat_toLower, if_neg (by omega)]

theorem eq_of_toLower_eq_j {c : Char} (h : c.toLower = 'j') : c = 'j' ∨ c = 'J' := by
  have hnat := congrArg Char.toNat h
  rw [toNat_toLower] at hnat
  have hj : 'j'.toNat = 106 := rfl
  have hJ : 'J'.toNat = 74 := rfl
  rw [← Char.toNat_inj, ← Char.toNat_inj, hj, hJ]
  split at hnat <;> omega

theorem toLower_joinAlias (k : Nat) : (joinAlias k).toLower = joinAlias k := by
  have hdigits : (Nat.toDigits 10 k).map Char.toLower = Nat.toDigits 10 k := by
    refine (List.map_congr_left fun d hd => ?_).trans (List.map_id _)
    exact toLower_of_isDigit (Sql.isDigit_of_mem_toDigits hd)
  rw [← String.toList_inj]
  unfold String.toLower
  rw [String.toList_map, Sql.toList_joinAlias, List.map_cons, hdigits]
  rfl

theorem joinAlias_injective {k l : Nat} (h : joinAlias k = joinAlias l) : k = l := by
  rw [← String.toList_inj, Sql.toList_joinAlias, Sql.toList_joinAlias] at h
  have hdigits := congrArg (fun ds => Nat.ofDigitChars 10 ds 0) (List.cons.inj h).2
  simpa only [Nat.ofDigitChars_ten_toDigits] using hdigits

/-- The alias of the queried table is that of no join, in any letter case. -/
theorem toLower_primaryAlias_ne {o : Options} (ho : o.fault? = none) (k : Nat) :
    o.primaryAlias.toLower ≠ joinAlias k := by
  intro h
  obtain ⟨-, -, hnojoin⟩ := Sql.primaryAlias_of_fault?_eq_none ho
  have hlower : o.primaryAlias.toList.map Char.toLower = 'j' :: Nat.toDigits 10 k := by
    rw [← String.toList_map, ← Sql.toList_joinAlias, ← h]
    rfl
  obtain ⟨c, cs, hcs, hc, hrest⟩ := List.map_eq_cons_iff.mp hlower
  have hj := eq_of_toLower_eq_j hc
  have hall : ∀ d ∈ cs, d.isDigit = true := fun d hd => by
    rw [← isDigit_toLower]
    exact Sql.isDigit_of_mem_toDigits (hrest ▸ List.mem_map_of_mem hd)
  -- So the alias is itself a `j` in some case and digits, which the options exclude.
  cases cs with
  | nil => exact Nat.toDigits_ne_nil hrest.symm
  | cons d ds =>
    have hjoin : Sql.isJoinAlias o.primaryAlias = true := by
      unfold Sql.isJoinAlias
      rw [hcs]
      rw [← List.all_eq_true] at hall
      rcases hj with rfl | rfl <;> simpa using hall
    rw [hjoin] at hnojoin
    cases hnojoin

theorem nodup_names {o : Options} (ho : o.fault? = none) (n : Nat) :
    ((o.primaryAlias :: (List.range n).map joinAlias).map String.toLower).Nodup := by
  rw [List.map_cons, List.map_map, List.nodup_cons]
  constructor
  · intro hmem
    obtain ⟨k, -, hk⟩ := List.mem_map.mp hmem
    rw [Function.comp_apply, toLower_joinAlias] at hk
    exact toLower_primaryAlias_ne ho k hk.symm
  · refine List.Pairwise.map _ ?_ List.nodup_range
    intro k l hne h
    rw [Function.comp_apply, Function.comp_apply, toLower_joinAlias, toLower_joinAlias] at h
    exact hne (joinAlias_injective h)

/-! ## What a request refers to -/

/-- The alias of the first table of a name: the queried table, or else the join with the least
position. -/
def Request.Binds (r : Request) (o : Options) (table name : String) : Prop :=
  (table = r.table ∧ name = o.primaryAlias) ∨
    (table ≠ r.table ∧ ∃ k, (r.joins.map Join.targetTable)[k]? = some table ∧
      (∀ i < k, (r.joins.map Join.targetTable)[i]? ≠ some table) ∧ name = joinAlias k)

/-- A selected column is named by its table, or by the queried one when it has none. -/
def SelectedColumn.RefersBy (r : Request) (o : Options) (c : SelectedColumn) (ref : Reference) :
    Prop :=
  ref.column = some c.column ∧
    if c.table = "" then ref.qualifier = o.primaryAlias else r.Binds o c.table ref.qualifier

/-- The column of a rule is its field, which belongs to the queried table when it has no point, and
else to the table in front of the first point. -/
def Rule.RefersBy (r : Request) (o : Options) (x : Rule) (ref : Reference) : Prop :=
  ('.' ∉ x.field.toList ∧ ref = ⟨o.primaryAlias, some x.field⟩) ∨
    ∃ table column : String, x.field = table ++ "." ++ column ∧ '.' ∉ table.toList ∧
      ref.column = some column ∧ r.Binds o table ref.qualifier

/-- Whether the condition of a rule is about its column: a membership in an empty list is not. -/
def Rule.namesColumn (x : Rule) : Bool :=
  match x.operator, x.operand with
  | some .isIn, .list [] => false
  | _, _ => true

section Requests

variable {r : Request} {o : Options}

theorem binds_of_source? {table : String} {source : Source}
    (h : r.scope.source? table = some source) : r.Binds o table (source.name o) := by
  unfold Scope.source? Request.scope at h
  simp only at h
  by_cases ht : table = r.table
  · rw [if_pos ht] at h
    cases h
    exact .inl ⟨ht, rfl⟩
  · rw [if_neg ht] at h
    obtain ⟨k, hk, rfl⟩ := Option.map_eq_some_iff.mp h
    obtain ⟨hlt, hfound, hfirst⟩ := List.findIdx?_eq_some_iff_getElem.mp hk
    have hlength : k < r.joins.length := hlt
    refine .inr ⟨ht, k, ?_, fun i hi hget => ?_, rfl⟩
    · rw [List.getElem?_map, List.getElem?_eq_getElem hlength]
      simpa using hfound
    · have hlt : i < r.joins.length := by omega
      rw [List.getElem?_map, List.getElem?_eq_getElem hlt] at hget
      have hnot := hfirst i hi
      simp only [Option.map_some, Option.some.injEq] at hget
      simp only [decide_eq_true_eq] at hnot
      exact hnot hget

/-- The alias of a table is one that the statement binds. -/
theorem Request.Binds.mem {table name : String} (h : r.Binds o table name) :
    name ∈ o.primaryAlias :: (List.range r.joins.length).map joinAlias := by
  rcases h with ⟨-, rfl⟩ | ⟨-, k, hk, -, rfl⟩
  · exact List.mem_cons_self
  · have hlt : k < (r.joins.map Join.targetTable).length := by
      rw [List.getElem?_eq_some_iff] at hk
      exact hk.1
    rw [List.length_map] at hlt
    exact List.mem_cons_of_mem _ (List.mem_map_of_mem (List.mem_range.mpr hlt))

theorem SelectedColumn.RefersBy.mem {c : SelectedColumn} {ref : Reference}
    (h : c.RefersBy r o ref) :
    ref.qualifier ∈ o.primaryAlias :: (List.range r.joins.length).map joinAlias := by
  have hqualifier := h.2
  split at hqualifier
  · rw [hqualifier]
    exact List.mem_cons_self
  · exact hqualifier.mem

theorem Rule.RefersBy.mem {x : Rule} {ref : Reference} (h : x.RefersBy r o ref) :
    ref.qualifier ∈ o.primaryAlias :: (List.range r.joins.length).map joinAlias := by
  rcases h with ⟨-, rfl⟩ | ⟨table, column, -, -, -, hbinds⟩
  · exact List.mem_cons_self
  · exact hbinds.mem

theorem refersBy_outputColumns {position : Nat} {cs : List SelectedColumn}
    {list : List Sql.OutputColumn} (h : outputColumns r.scope position cs = .ok list) :
    List.Forall₂ (SelectedColumn.RefersBy r o) cs (list.map fun c => c.column.reference o) := by
  induction cs generalizing position list with
  | nil =>
    cases h
    exact .nil
  | cons c cs ih =>
    obtain ⟨-, source, rest, hs, hr, rfl⟩ := outputColumns_cons_eq_ok_iff.mp h
    refine .cons ⟨rfl, ?_⟩ (ih hr)
    have hbinds := binds_of_source? (o := o) (Scope.source_eq_ok_iff.mp hs)
    by_cases hc : c.table = ""
    · rw [if_pos hc] at hbinds ⊢
      rcases hbinds with ⟨-, h⟩ | ⟨hne, -⟩
      · exact h
      · exact absurd rfl hne
    · rwa [if_neg hc] at hbinds ⊢

theorem refersBy_column {x : Rule} {column : ColumnRef}
    (h : r.scope.column x.field = .ok column) : x.RefersBy r o (column.reference o) := by
  unfold Scope.column at h
  cases hfield : Field.ofText x.field with
  | bare name =>
    rw [hfield] at h
    cases h
    obtain ⟨rfl, hnot⟩ := Field.ofText_eq_bare_iff.mp hfield
    exact .inl ⟨hnot, rfl⟩
  | qualified table name =>
    rw [hfield] at h
    obtain ⟨source, hs, h⟩ := bind_eq_ok_iff.mp h
    cases h
    obtain ⟨htext, hnot⟩ := Field.ofText_eq_qualified_iff.mp hfield
    exact .inr ⟨table, name, htext, hnot, rfl, binds_of_source? (Scope.source_eq_ok_iff.mp hs)⟩

theorem Operator.column?_condition (x : Rule) (column : ColumnRef) :
    ((x.operator.getD .other).condition column x.operand).column? =
      if x.namesColumn then some column else none := by
  unfold Rule.namesColumn
  cases x.operator with
  | none => rfl
  | some op =>
    cases op with
    | isIn =>
      simp only [Option.getD_some, condition]
      cases x.operand with
      | list members => cases members <;> rfl
      | _ => rfl
    | _ => rfl

/-- The references of the conditions of rules are to the columns that the rules name. -/
theorem refersBy_conditions {xs : List Rule} {cs : List Condition}
    (h : xs.mapM (Rule.condition r.scope) = .ok cs) :
    List.Forall₂ (Rule.RefersBy r o) (xs.filter Rule.namesColumn)
      (Sql.conditionReferences o cs) := by
  induction mapM_eq_ok_iff.mp h with
  | nil => exact .nil
  | @cons x c xs cs hx hxs ih =>
    obtain ⟨column, hcolumn, hc⟩ := bind_eq_ok_iff.mp hx
    cases hc
    have ih := ih (mapM_eq_ok_iff.mpr hxs)
    have hcolumn? := Operator.column?_condition x column
    unfold Sql.conditionReferences at ih ⊢
    by_cases hnames : x.namesColumn = true
    · rw [if_pos hnames] at hcolumn?
      rw [List.filter_cons_of_pos hnames, List.filterMap_cons_some (by rw [hcolumn?]; rfl)]
      exact .cons (refersBy_column hcolumn) ih
    · rw [if_neg hnames] at hcolumn?
      rw [List.filter_cons_of_neg hnames, List.filterMap_cons_none (by rw [hcolumn?]; rfl)]
      exact ih

end Requests

/-! ## The compiler -/

section Statements

variable {r : Request} {o : Options} {s : Sql.Select}

theorem names_parts (h : s.joins = r.joins) :
    (s.parts o).names = o.primaryAlias :: (List.range r.joins.length).map joinAlias := by
  have hjoins : (r.joins.zipIdx.map fun x => Sql.joinItem o x.2 x.1).map Sql.JoinItem.name =
      (r.joins.zipIdx.map Prod.snd).map joinAlias := by
    rw [List.map_map, List.map_map]
    rfl
  rw [List.zipIdx_map_snd, ← List.range_eq_range'] at hjoins
  rw [← hjoins, ← h]
  rfl

theorem references_shown (h : r.select = .ok s) :
    if r.columns = [] then
      Sql.references (s.parts o).shown = (s.parts o).names.map fun name => ⟨name, none⟩
    else List.Forall₂ (SelectedColumn.RefersBy r o) r.columns
      (Sql.references (s.parts o).shown) := by
  obtain ⟨-, -, hp, -, -, hjoins⟩ := Request.select_eq_ok_iff.mp h
  have hshown : (s.parts o).shown = s.projection.tokens o s.joins.length := rfl
  rw [names_parts hjoins, hshown, Sql.references_projection, hjoins]
  unfold Request.projection at hp
  by_cases hc : r.columns = []
  · rw [if_pos (by simp [hc])] at hp
    rw [if_pos hc, ← Except.ok.inj hp, Sql.Projection.references, List.map_cons, List.map_cons,
      List.map_map, List.map_map]
    rfl
  · rw [if_neg (by simpa using hc)] at hp
    obtain ⟨list, hlist, hprojection⟩ := map_eq_ok_iff.mp hp
    rw [if_neg hc, ← hprojection]
    exact refersBy_outputColumns hlist

theorem references_condition (h : r.select = .ok s) :
    List.Forall₂ (Rule.RefersBy r o) (r.filter.completeRules.filter Rule.namesColumn)
      (Sql.references (s.parts o).condition) := by
  obtain ⟨-, -, -, hw, -, -⟩ := Request.select_eq_ok_iff.mp h
  have hcondition : (s.parts o).condition = s.condition.tokens o := rfl
  rw [hcondition, Sql.references_where]
  refine refersBy_conditions ?_
  rw [Group.mapM_completeRules, hw]
  rfl

end Statements

/-- The aliases and the references of a statement are those of the request. -/
structure Sql.Statement.IsScoped (r : Request) (o : Options) (s : Sql.Statement) : Prop where
  table : s.table = r.table
  name : s.name = o.primaryAlias
  joins : s.joins = r.joins.zipIdx.map fun (j, k) => ⟨j.type, j.targetTable, joinAlias k,
    ⟨o.primaryAlias, some j.sourceColumn⟩, ⟨joinAlias k, some j.targetColumn⟩⟩
  /-- No two aliases are the same, in any letter case. -/
  distinct : (s.names.map String.toLower).Nodup
  bound : ∀ ref ∈ s.references, ref.qualifier ∈ s.names
  /-- Without selected columns, all columns of each table are shown. -/
  shown : if r.columns = [] then Sql.references s.shown = s.names.map fun name => ⟨name, none⟩
    else List.Forall₂ (SelectedColumn.RefersBy r o) r.columns (Sql.references s.shown)
  condition : List.Forall₂ (Rule.RefersBy r o) (r.filter.completeRules.filter Rule.namesColumn)
    (Sql.references s.condition)

theorem bound_parts {r : Request} {o : Options} {s : Sql.Select} (h : r.select = .ok s) :
    ∀ ref ∈ (s.parts o).references, ref.qualifier ∈ (s.parts o).names := by
  have hjoins : s.joins = r.joins := (Request.select_eq_ok_iff.mp h).2.2.2.2.2
  intro ref href
  rcases List.mem_append.mp href with href | href
  · rcases List.mem_append.mp href with href | href
    · have hshown := references_shown (o := o) h
      split at hshown
      · rw [hshown] at href
        obtain ⟨name, hname, rfl⟩ := List.mem_map.mp href
        exact hname
      · obtain ⟨c, -, hc⟩ := exists_of_mem_forall₂ hshown href
        rw [names_parts hjoins]
        exact hc.mem
    · -- A join refers to the queried table and to its own.
      obtain ⟨item, hitem, href⟩ := List.mem_flatMap.mp href
      have hname : item.name ∈ (s.parts o).names :=
        List.mem_cons_of_mem _ (List.mem_map_of_mem hitem)
      obtain ⟨⟨j, k⟩, -, rfl⟩ := List.mem_map.mp hitem
      simp only [List.mem_cons, List.not_mem_nil, or_false] at href
      rcases href with rfl | rfl
      · exact List.mem_cons_self
      · exact hname
  · obtain ⟨x, -, hx⟩ := exists_of_mem_forall₂ (references_condition h) href
    rw [names_parts hjoins]
    exact hx.mem

/-- The text of a statement binds the primary alias and one alias for each join, all distinct in
any letter case, and refers to columns by these alone: in the condition of a join by the primary
alias and the join's own, and elsewhere by that of the first table with the name in the request. -/
theorem Compiler.compile_scoped {c : Compiler} {r : Request} {sql : String}
    (h : c.compile r = .ok sql) : ∃ ts s, Sql.lex? sql = some ts ∧ Sql.statement? ts = some s ∧
      s.IsScoped r c.options := by
  obtain ⟨s, hs, rfl⟩ := map_eq_ok_iff.mp h
  obtain ⟨-, -, -, hw, htable, hjoins⟩ := Request.select_eq_ok_iff.mp hs
  have hread := Sql.Select.phrase c.usable (Group.isPlain_condition hw)
  refine ⟨_, _, hread.lex?_eq, Sql.statement?_tokens c.usable s, ?_⟩
  refine ⟨htable, rfl, ?_, ?_, bound_parts hs, references_shown hs, references_condition hs⟩
  · rw [← hjoins]
    rfl
  · rw [names_parts hjoins]
    exact nodup_names c.usable _

/-- A request that joins its own table, and another one twice. -/
def Request.selfJoin : Request where
  table := "staff"
  joins := [⟨.inner, "staff", "boss", "id"⟩, ⟨.left, "city", "home", "id"⟩,
    ⟨.left, "city", "work", "id"⟩]
  columns := [⟨"", "name", ""⟩, ⟨"staff", "boss", ""⟩, ⟨"city", "name", "town"⟩]
  filter := ⟨.and, [.rule ⟨"city.name.de", some .contains, some (.text "j0.*")⟩,
    .rule ⟨"age", some .isIn, some (.list [])⟩]⟩

theorem Compiler.compile_scoped_selfJoin :
    ∃ sql ts s, Compiler.standard.compile .selfJoin = .ok sql ∧ Sql.lex? sql = some ts ∧
      Sql.statement? ts = some s ∧ s.IsScoped .selfJoin {} ∧
      s.names = ["main", "j0", "j1", "j2"] := by
  obtain ⟨ts, s, hlex, hs, hscoped⟩ := compile_scoped (c := .standard) (r := .selfJoin) rfl
  refine ⟨_, ts, s, rfl, hlex, hs, hscoped, ?_⟩
  rw [Sql.Statement.names, hscoped.name, hscoped.joins]
  decide +kernel

end FilterSelect
