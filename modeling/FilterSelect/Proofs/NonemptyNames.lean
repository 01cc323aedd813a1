import FilterSelect.Proofs.Faults
import FilterSelect.Proofs.Injection

/-!
# No name is empty

A quoted identifier without a name is no SQL. A request is checked for empty names in three places:
the table, the joins and the selected columns are faults when they have one, and a rule whose field
lacks a part is left out. So no text of the compiler has an empty name, neither that of a statement
nor that of a filter alone, whose request is not checked for the other faults.

* `Shows.mem_iff`: the names of tokens are those in the data that they show.
* `Rule.name_of_mem_data`: a rule has the name of its column only.
* `Request.name_empty_notMem_data`: the data of a request without faults has no empty name.
* `Compiler.lex?_nonempty`: no text of the compiler has one.
-/

namespace FilterSelect

open Sql (Token)

theorem Shows.mem_iff {ts ds us : List Token} (h : Shows ts ds us) {t : Token}
    (ht : t.isDatum = true) : t ∈ ts ↔ t ∈ ds := by
  rw [← h.data, List.mem_filter, and_iff_left ht]

/-! ## The names of rules -/

theorem Field.column_ne_empty {f : Field} (h : f.isComplete = true) : f.column ≠ "" := by
  cases f with
  | bare column => simpa [isComplete, Field.column] using h
  | qualified table column =>
    rw [isComplete, Bool.and_eq_true] at h
    simpa [Field.column] using h.2

theorem Value.name_notMem_data (v : Value) (s : String) : Token.name s ∉ v.data := by
  unfold data
  split
  · exact List.not_mem_nil
  · split <;> simp

theorem Value.name_notMem_orderingData (v : Value) (s : String) :
    Token.name s ∉ v.orderingData := by
  unfold orderingData
  split <;> simp

/-- A rule has the name of its column only. -/
theorem Rule.name_of_mem_data {x : Rule} {s : String} (h : Token.name s ∈ x.data) :
    s = (Field.ofText x.field).column := by
  have hcons {ds : List Token} (hds : Token.name s ∉ ds)
      (hmem : Token.name s ∈ .name (Field.ofText x.field).column :: ds) :
      s = (Field.ofText x.field).column :=
    Token.name.inj ((List.mem_cons.mp hmem).resolve_right hds)
  unfold data at h
  generalize x.operator.getD .other = op at h
  cases op with
  | isNull | isNotNull => exact hcons List.not_mem_nil h
  | contains | beginsWith | endsWith => exact hcons (by simp) h
  | less | greater | atMost | atLeast => exact hcons (Value.name_notMem_orderingData _ _) h
  | equal | notEqual | other => exact hcons (Value.name_notMem_data _ _) h
  | isIn =>
    simp only at h
    split at h
    · simp at h
    · refine hcons (fun hmem => ?_) h
      obtain ⟨v, -, hv⟩ := List.mem_flatMap.mp hmem
      exact v.name_notMem_data s hv

/-- The complete rules of a filter have no empty name. -/
theorem Group.name_empty_notMem_data (g : Group) :
    Token.name "" ∉ g.completeRules.flatMap Rule.data := by
  intro hmem
  obtain ⟨x, hx, hname⟩ := List.mem_flatMap.mp hmem
  rw [mem_completeRules_iff, Rule.isComplete, Bool.and_eq_true] at hx
  exact Field.column_ne_empty hx.2.2 (Rule.name_of_mem_data hname).symm

/-! ## The names of requests -/

theorem SelectedColumn.name_empty_notMem_data {c : SelectedColumn} (h : c.column ≠ "") :
    Token.name "" ∉ c.data := by
  have hshown : c.shownAs ≠ "" := by
    unfold shownAs
    split <;> assumption
  simp [data, h.symm, hshown.symm]

/-- The names of a request without faults are not empty. -/
theorem Request.name_empty_notMem_data {r : Request} (h : r.IsSound) :
    Token.name "" ∉ r.data := by
  unfold data
  simp only [List.mem_append, not_or]
  refine ⟨⟨⟨fun hmem => ?_, ?_⟩, fun hmem => ?_⟩, r.filter.name_empty_notMem_data⟩
  · obtain ⟨c, hc, hname⟩ := List.mem_flatMap.mp hmem
    exact SelectedColumn.name_empty_notMem_data (h.columns c hc).1 hname
  · simpa using h.table.symm
  · obtain ⟨j, hj, hname⟩ := List.mem_flatMap.mp hmem
    obtain ⟨htarget, hsource, hcolumn⟩ := h.joins j hj
    simp [Join.data, htarget.symm, hsource.symm, hcolumn.symm] at hname

/-! ## The compiler -/

namespace Compiler

/-- The text of a statement is read without an empty name, and so is the text of a filter, even that
of a request that has no statement. -/
theorem lex?_nonempty (c : Compiler) (r : Request) :
    (∀ sql, c.compile r = .ok sql → ∃ ts, Sql.lex? sql = some ts ∧ Token.name "" ∉ ts) ∧
    ∀ sql, c.compileFilter r = .ok sql → ∃ ts, Sql.lex? sql = some ts ∧ Token.name "" ∉ ts := by
  refine ⟨fun sql h => ?_, fun sql h => ?_⟩
  · obtain ⟨s, hs, rfl⟩ := map_eq_ok_iff.mp h
    have hw := (Request.select_eq_ok_iff.mp hs).2.2.2.1
    have hread := Sql.Select.phrase c.usable (Group.isPlain_condition hw)
    refine ⟨_, hread.lex?_eq, ?_⟩
    rw [(shows_select c.options hs).mem_iff rfl]
    exact Request.name_empty_notMem_data (Request.isSound_of_select hs)
  · obtain ⟨w, hw, rfl⟩ := map_eq_ok_iff.mp h
    have hread := Sql.Where.phrase c.usable (Group.isPlain_condition hw)
    have hshows := (r.filter.shows_clauses c.options hw).2.intercalate
      (shows_separator w.combinator)
    refine ⟨_, hread.lex?_eq, ?_⟩
    unfold Sql.Where.tokens
    rw [hshows.mem_iff rfl]
    exact r.filter.name_empty_notMem_data

end Compiler

-- The lexer does read an empty name where a text has one.
example : Sql.lex? "u.\"\" IS NULL" = some
    [.word "u", .punct '.', .name "", .word "IS", .word "NULL"] := by decide +kernel

/-- A request without a table, with a join and a column that lack names, and with one rule that is
complete. -/
def Request.nameless : Request where
  joins := [⟨.inner, "city", "", "id"⟩]
  columns := [⟨"", "", "x"⟩]
  filter := ⟨.and, [.rule ⟨".name", some .isNull, none⟩, .rule ⟨"city.", some .isNull, none⟩,
    .group .or [.rule ⟨"", some .equal, some (.int 1)⟩, .rule ⟨"city.\"", some .isNull, none⟩]]⟩

theorem Compiler.lex?_nonempty_nameless :
    (∃ sql ts, standard.compile .hostile = .ok sql ∧ Sql.lex? sql = some ts ∧
      Token.name "" ∉ ts) ∧
    standard.compile .nameless = .error .missingTable ∧
    ∃ sql ts, standard.compileFilter .nameless = .ok sql ∧ Sql.lex? sql = some ts ∧
      Token.name "" ∉ ts := by
  obtain ⟨ts, hts, hnames⟩ := (lex?_nonempty standard .hostile).1 _ rfl
  obtain ⟨us, hus, hnames'⟩ := (lex?_nonempty standard .nameless).2 _ rfl
  exact ⟨⟨_, ts, rfl, hts, hnames⟩, rfl, _, us, rfl, hus, hnames'⟩

end FilterSelect
