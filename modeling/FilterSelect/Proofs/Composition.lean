import FilterSelect.Proofs.Filter.Rules
import FilterSelect.Proofs.Sql.Blank

/-!
# Filters are compiled piece by piece

The text of a filter is put together from the texts of its parts. Members in front have their text
in front, those behind have theirs behind, and a separator stands between the two when both have a
text; a group that is put into another keeps its text, in parentheses. So an edit at the end of a
filter or around it leaves all that was written before, and a fault of the earlier part is reported
first.

* `Group.sql`: the text of a filter.
* `Combinator.joined`, `parenthesized`: what is written of two lists of members, and of a group.
* `Node.clauses_append`: the clauses of members are those of the first ones and those of the others.
* `Group.sql_composed`: the text of a filter with members added to it or a group put around it.
-/

namespace FilterSelect

open Sql (Clause Where)

/-- The text of a filter; empty when no rule is complete. -/
def Group.sql (s : Scope) (o : Options) (g : Group) : Except CompileError String :=
  Where.sql o <$> g.condition s

theorem Compiler.compileFilter_eq_sql (c : Compiler) (r : Request) :
    c.compileFilter r = r.filter.sql r.scope c.options := rfl

/-- The texts of members and of those behind them, with the separator if there are two. -/
def Combinator.joined (k : Combinator) (a b : String) : String :=
  if a = "" then b else if b = "" then a else a ++ k.separator ++ b

/-- The text of a group inside another; a group without a text has none there. -/
def parenthesized (a : String) : String := if a = "" then "" else "(" ++ a ++ ")"

/-- The text of a rule as a member; empty when the rule is not complete. -/
def Rule.memberSql (s : Scope) (o : Options) (x : Rule) : Except CompileError String :=
  if x.isComplete then Sql.Condition.sql o <$> x.condition s else .ok ""

/-! ## Clauses -/

namespace Sql.Where

variable (o : Options) (k : Combinator)

theorem sql_append (cs ds : List Clause) :
    sql o ⟨k, cs ++ ds⟩ = k.joined (sql o ⟨k, cs⟩) (sql o ⟨k, ds⟩) := by
  unfold Combinator.joined
  by_cases hcs : cs = []
  · rw [if_pos ((sql_eq_empty_iff o).mpr hcs), hcs, List.nil_append]
  by_cases hds : ds = []
  · rw [if_neg (mt (sql_eq_empty_iff o).mp hcs), if_pos ((sql_eq_empty_iff o).mpr hds), hds,
      List.append_nil]
  · rw [if_neg (mt (sql_eq_empty_iff o).mp hcs), if_neg (mt (sql_eq_empty_iff o).mp hds)]
    simp only [sql, Clause.sqls_eq_map, List.map_append]
    exact String.intercalate_append_of_ne_nil (by simpa using hcs) (by simpa using hds)

/-- The text of a group whose only member is a group. -/
theorem sql_ofMembers? (outer : Combinator) (cs : List Clause) :
    sql o ⟨outer, (Clause.ofMembers? k cs).toList⟩ = parenthesized (sql o ⟨k, cs⟩) := by
  unfold parenthesized
  cases cs with
  | nil => rfl
  | cons c cs =>
    rw [if_neg (mt (sql_eq_empty_iff o).mp (List.cons_ne_nil c cs))]
    simp [sql, Clause.ofMembers?, Clause.sqls, Clause.sql]

end Sql.Where

namespace Node

variable (s : Scope)

/-- Members contribute the clauses of the first ones and then those of the others; the first fault
is that of the first ones, if they have one. -/
theorem clauses_append (ns ms : List Node) :
    clauses s (ns ++ ms) = do return (← clauses s ns) ++ (← clauses s ms) := by
  induction ns with
  | nil => exact (bind_pure (clauses s ms)).symm
  | cons n ns ih =>
    simp only [List.cons_append, clauses_cons, ih, bind_assoc, pure_bind, List.append_assoc]

theorem clauses_singleton (n : Node) : clauses s [n] = Option.toList <$> n.clause? s := by
  rw [clauses_cons]
  cases n.clause? s with
  | error => rfl
  | ok c => exact congrArg Except.ok (List.append_nil _)

end Node

/-! ## Filters -/

namespace Group

variable (s : Scope) (o : Options)

theorem sql_eq_map_clauses (k : Combinator) (ns : List Node) :
    sql s o ⟨k, ns⟩ = (fun cs => Where.sql o ⟨k, cs⟩) <$> Node.clauses s ns := by
  unfold sql condition
  cases Node.clauses s ns <;> rfl

theorem sql_append (k : Combinator) (ns ms : List Node) : sql s o ⟨k, ns ++ ms⟩ = do
    let a ← sql s o ⟨k, ns⟩
    let b ← sql s o ⟨k, ms⟩
    return k.joined a b := by
  simp only [sql_eq_map_clauses, Node.clauses_append, map_eq_pure_bind, bind_assoc, pure_bind,
    Where.sql_append]

theorem sql_rule (k : Combinator) (x : Rule) : sql s o ⟨k, [.rule x]⟩ = x.memberSql s o := by
  rw [sql_eq_map_clauses, Node.clauses_singleton, Node.clause?_rule, Rule.memberSql]
  by_cases hx : x.isComplete = true
  · rw [if_pos hx, if_pos hx]
    cases x.condition s with
    | error => rfl
    | ok c => exact congrArg Except.ok (by simp [Where.sql, Clause.sqls, Clause.sql])
  · rw [if_neg hx, if_neg hx]
    rfl

theorem sql_group (k : Combinator) (g : Group) :
    sql s o ⟨k, [g.toNode]⟩ = parenthesized <$> g.sql s o := by
  rw [sql_eq_map_clauses, Node.clauses_singleton, toNode, Node.clause?_group, sql_eq_map_clauses]
  simp only [Functor.map_map, Where.sql_ofMembers?]

/-- The text of two lists of members is that of the first, the separator and that of the second, and
the fault is the first of theirs. A group around a filter adds parentheses to its text. So a rule or
a group that is added at the end of a filter adds its own text at the end, and nothing else. -/
theorem sql_composed :
    (∀ k ns ms, sql s o ⟨k, ns ++ ms⟩ = do
      let a ← sql s o ⟨k, ns⟩
      let b ← sql s o ⟨k, ms⟩
      return k.joined a b) ∧
    (∀ (g : Group) k, (g.wrap k).sql s o = do
      let a ← g.sql s o
      return parenthesized a) ∧
    (∀ (g : Group) (x : Rule), (g.add (.rule x)).sql s o = do
      let a ← g.sql s o
      let b ← x.memberSql s o
      return g.combinator.joined a b) ∧
    ∀ g h : Group, (g.add h.toNode).sql s o = do
      let a ← g.sql s o
      let b ← h.sql s o
      return g.combinator.joined a (parenthesized b) := by
  refine ⟨sql_append s o, fun g k => ?_, fun g x => ?_, fun g h => ?_⟩
  · rw [wrap, sql_group, map_eq_pure_bind]
  · have hadd := sql_append s o g.combinator g.members [.rule x]
    rwa [sql_rule] at hadd
  · have hadd := sql_append s o g.combinator g.members [h.toNode]
    rw [sql_group] at hadd
    simp only [map_eq_pure_bind, bind_assoc, pure_bind] at hadd
    exact hadd

end Group

end FilterSelect
