import FilterSelect.Proofs.Filter.Tables
import FilterSelect.Proofs.Sql.Blank
import FilterSelect.Proofs.Sql.Statement

/-!
# Incomplete rules do not count

Taking incomplete rules out of a filter, and groups that hold no other rules, changes nothing of
what the filter compiles to. What remains after taking out all of them is nothing exactly when the
filter has no condition.

* `Rule.IsIncomplete`: the rules that are left out of a statement.
* `Group.Thinned`: a filter with some of its incomplete rules and empty groups taken out.
* `Node.clauses_thinned`: the members that remain have the clauses of all.
* `Compiler.compile_thinned`: a thinned filter compiles to the same text or the same fault, and the
  text has a condition exactly when some rule is complete.
-/

namespace FilterSelect

open Sql (Clause)

/-! ## Incomplete rules -/

/-- The rule has no operator or no field, or nothing on one side of the first point of its field. -/
def Rule.IsIncomplete (x : Rule) : Prop :=
  x.operator = none ∨ x.field = "" ∨ ∃ table column : String,
    x.field = table ++ "." ++ column ∧ '.' ∉ table.toList ∧ (table = "" ∨ column = "")

theorem Rule.isComplete_eq_false_iff {x : Rule} : x.isComplete = false ↔ x.IsIncomplete := by
  have hfield : (Field.ofText x.field).isComplete = false ↔ x.field = "" ∨
      ∃ table column, Field.ofText x.field = .qualified table column ∧
        (table = "" ∨ column = "") := by
    cases h : Field.ofText x.field with
    | bare column =>
      obtain ⟨rfl, -⟩ := Field.ofText_eq_bare_iff.mp h
      simp [Field.isComplete]
    | qualified table column =>
      have hne : x.field ≠ "" := by
        intro hempty
        rw [hempty] at h
        cases h
      simp [Field.isComplete, hne, Decidable.imp_iff_not_or]
  simp only [isComplete, IsIncomplete, Bool.and_eq_false_iff, hfield, Option.isSome_eq_false_iff,
    Option.isNone_iff_eq_none, Field.ofText_eq_qualified_iff, and_assoc]

theorem Rule.isComplete_iff {x : Rule} : x.isComplete = true ↔ ¬ x.IsIncomplete := by
  rw [← isComplete_eq_false_iff, Bool.not_eq_false]

/-! ## Thinned filters -/

/-- The second list has the members of the first but for some of its incomplete rules and some of
its groups without other rules, at any depth. -/
inductive Node.Thinned : List Node → List Node → Prop
  | nil : Thinned [] []
  | rule (x : Rule) {ns ms : List Node} (h : Thinned ns ms) :
      Thinned (.rule x :: ns) (.rule x :: ms)
  | group (combinator : Combinator) {inner rest ns ms : List Node} (hinner : Thinned inner rest)
      (h : Thinned ns ms) : Thinned (.group combinator inner :: ns) (.group combinator rest :: ms)
  | dropRule {x : Rule} {ns ms : List Node} (hx : x.IsIncomplete) (h : Thinned ns ms) :
      Thinned (.rule x :: ns) ms
  | dropGroup {combinator : Combinator} {inner ns ms : List Node}
      (hinner : ∀ x ∈ rulesOf inner, x.IsIncomplete) (h : Thinned ns ms) :
      Thinned (.group combinator inner :: ns) ms

/-- The second filter has the members of the first but for some of its incomplete rules and some of
its groups without other rules, at any depth. -/
def Group.Thinned (g h : Group) : Prop :=
  h.combinator = g.combinator ∧ Node.Thinned g.members h.members

theorem Node.clauses_thinned {s : Scope} {ns ms : List Node} (h : Thinned ns ms) :
    clauses s ms = clauses s ns := by
  induction h with
  | nil => rfl
  | rule x h ih => rw [clauses_cons, clauses_cons, ih]
  | group combinator hinner h ihinner ih =>
    rw [clauses_cons, clauses_cons, clause?_group, clause?_group, ihinner, ih]
  | dropRule hx h ih =>
    rw [clauses_cons, clause?_rule, Rule.isComplete_eq_false_iff.mpr hx, ih]
    cases clauses s _ <;> rfl
  | dropGroup hinner h ih =>
    rw [clauses_cons, clause?_group, ih, clauses_of_incomplete fun x hx =>
      Rule.isComplete_eq_false_iff.mpr (hinner x hx)]
    cases clauses s _ <;> rfl

theorem Group.condition_thinned {s : Scope} {g h : Group} (hthin : g.Thinned h) :
    h.condition s = g.condition s := by
  rw [condition, condition, hthin.1, Node.clauses_thinned hthin.2]

theorem Request.select_thinned {r : Request} {g : Group} (h : r.filter.Thinned g) :
    ({ r with filter := g } : Request).select = r.select := by
  have hcondition : g.condition r.scope = r.filter.condition r.scope := Group.condition_thinned h
  have hscope : ({ r with filter := g } : Request).scope = r.scope := rfl
  have hprojection : ({ r with filter := g } : Request).projection = r.projection := rfl
  rw [select, select, hscope, hprojection, hcondition]

/-! ## Filters without a condition -/

/-- A filter has no clause exactly when all its rules are incomplete. -/
theorem Group.clauses_eq_nil_iff {s : Scope} {g : Group} {w : Sql.Where}
    (h : g.condition s = .ok w) : w.clauses = [] ↔ ∀ x ∈ g.rules, x.IsIncomplete := by
  obtain ⟨cs, hcs, h⟩ := bind_eq_ok_iff.mp h
  cases h
  simp only [Node.clauses_eq_nil_iff hcs, Rule.isComplete_eq_false_iff, rules]

namespace Compiler

/-- Taking incomplete rules and groups without other rules out of a filter changes neither the text
nor the fault of a request. The text of a filter is empty exactly when all its rules are incomplete,
and a statement has a condition exactly when some rule is complete. -/
theorem compile_thinned (c : Compiler) (r : Request) :
    (∀ g, r.filter.Thinned g → c.compile { r with filter := g } = c.compile r ∧
      c.compileFilter { r with filter := g } = c.compileFilter r) ∧
    (∀ sql, c.compileFilter r = .ok sql → (sql = "" ↔ ∀ x ∈ r.filter.rules, x.IsIncomplete)) ∧
    ∀ sql, c.compile r = .ok sql →
      Sql.HasWhereIff sql (∃ x ∈ r.filter.rules, ¬ x.IsIncomplete) := by
  refine ⟨fun g hg => ⟨?_, ?_⟩, fun sql h => ?_, fun sql h => ?_⟩
  · rw [compile, compile, Request.select_thinned hg]
  · exact congrArg (Sql.Where.sql c.options <$> ·) (Group.condition_thinned hg)
  · obtain ⟨w, hw, rfl⟩ := map_eq_ok_iff.mp h
    rw [Sql.Where.sql_eq_empty_iff, Group.clauses_eq_nil_iff hw]
  · obtain ⟨s, hs, rfl⟩ := map_eq_ok_iff.mp h
    obtain ⟨-, -, -, hw, -, -⟩ := Request.select_eq_ok_iff.mp hs
    have hwhere := Sql.Select.hasWhereIff c.usable (Group.isPlain_condition hw)
    simpa [Group.clauses_eq_nil_iff hw] using hwhere

end Compiler

/-- Two rules of the filter are complete, one that asks for null and one with a value. Four are
not. -/
def Request.patchy : Request where
  table := "person"
  filter := ⟨.or, [
    .rule ⟨"", some .equal, some (.int 1)⟩,
    .group .and [.rule ⟨"person.", some .isNull, none⟩, .group .or [.rule ⟨"age", none, none⟩]],
    .rule ⟨"age", some .isNull, none⟩,
    .group .and [.rule ⟨".name", some .isNull, none⟩,
      .rule ⟨"name", some .beginsWith, some (.text "Jo")⟩]]⟩

/-- One of the incomplete rules is still there. -/
def Group.lessPatchy : Group := ⟨.or, [
  .rule ⟨"age", some .isNull, none⟩,
  .group .and [.rule ⟨".name", some .isNull, none⟩,
    .rule ⟨"name", some .beginsWith, some (.text "Jo")⟩]]⟩

theorem Compiler.compile_thinned_patchy :
    Request.patchy.filter.Thinned .lessPatchy ∧
    ∃ sql text, standard.compile { Request.patchy with filter := .lessPatchy } = .ok sql ∧
      standard.compileFilter { Request.patchy with filter := .lessPatchy } = .ok text ∧
      standard.compile .patchy = .ok sql ∧ standard.compileFilter .patchy = .ok text ∧
      text ≠ "" ∧ Sql.HasWhereIff sql True := by
  have hthin : Request.patchy.filter.Thinned .lessPatchy := by
    refine ⟨rfl, .dropRule (.inr (.inl rfl)) (.dropGroup ?_ (.rule _ (.group _ ?_ .nil)))⟩
    · simp only [Node.rulesOf, Node.rules, List.append_nil, List.cons_append, List.nil_append,
        List.forall_mem_cons]
      exact ⟨.inr (.inr ⟨"person", "", by decide, by decide, .inr rfl⟩), .inl rfl, nofun⟩
    · exact .rule _ (.rule _ .nil)
  have hage : (⟨"age", some .isNull, none⟩ : Rule) ∈ Request.patchy.filter.rules := by
    simp [Request.patchy, Group.rules, Node.rulesOf, Node.rules]
  have hcomplete : ¬ Rule.IsIncomplete ⟨"age", some .isNull, none⟩ := by
    rw [← Rule.isComplete_eq_false_iff]
    decide +kernel
  have hsome : (∃ x ∈ Request.patchy.filter.rules, ¬ x.IsIncomplete) ↔ True :=
    iff_true_intro ⟨_, hage, hcomplete⟩
  obtain ⟨hsame, hempty, hwhere⟩ := compile_thinned .standard .patchy
  have hsql := hwhere _ rfl
  rw [hsome] at hsql
  exact ⟨hthin, _, _, (hsame _ hthin).1, (hsame _ hthin).2, rfl, rfl,
    fun h => hcomplete ((hempty _ rfl).mp h _ hage), hsql⟩

end FilterSelect
