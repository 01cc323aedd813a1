import FilterSelect.Compiler.Basic
import FilterSelect.Proofs.Filter.Tree
import FilterSelect.Proofs.Sql.Phrase
import FilterSelect.Proofs.Steps

/-!
# The rules of a filter and their conditions

Compiling a filter is compiling its complete rules from left to right: the conditions of its
clauses are those of the rules, and the first rule without a condition is what stops it. The
groups only decide where the parentheses go.

* `Group.completeRules`: the complete rules of a filter, at any depth, in order.
* `Group.mapM_completeRules`: the conditions of a filter are those of its complete rules.
* `Node.clauses_eq_nil_iff`: only members without a complete rule contribute no clause.
* `Group.isPlain_condition`: all numbers in the condition of a filter are plain.
-/

namespace FilterSelect

open Sql (Clause Condition)

/-! ## Complete rules -/

namespace Node

mutual

/-- The complete rules of a member, in order. -/
def completeRules : Node → List Rule
  | .rule r => if r.isComplete then [r] else []
  | .group _ members => completeRulesOf members

/-- The complete rules of the members of a group, in order. -/
def completeRulesOf : List Node → List Rule
  | [] => []
  | n :: ns => n.completeRules ++ completeRulesOf ns

end

end Node

mutual

theorem Node.completeRules_eq_filter (n : Node) :
    n.completeRules = n.rules.filter Rule.isComplete := by
  cases n with
  | rule r => cases h : r.isComplete <;> simp [completeRules, rules, h]
  | group combinator members => exact Node.completeRulesOf_eq_filter members

theorem Node.completeRulesOf_eq_filter (ns : List Node) :
    completeRulesOf ns = (rulesOf ns).filter Rule.isComplete := by
  cases ns with
  | nil => rfl
  | cons n ns =>
    rw [completeRulesOf, rulesOf, List.filter_append, Node.completeRules_eq_filter n,
      Node.completeRulesOf_eq_filter ns]

end

theorem Node.completeRulesOf_eq_nil_iff {ns : List Node} :
    completeRulesOf ns = [] ↔ ∀ x ∈ rulesOf ns, x.isComplete = false := by
  simp [completeRulesOf_eq_filter]

/-- The complete rules of a filter, in order. -/
def Group.completeRules (g : Group) : List Rule := Node.completeRulesOf g.members

theorem Group.mem_completeRules_iff {g : Group} {x : Rule} :
    x ∈ g.completeRules ↔ x ∈ g.rules ∧ x.isComplete = true := by
  rw [completeRules, Node.completeRulesOf_eq_filter, List.mem_filter, rules]

/-! ## Clauses -/

/-- The group of the given clauses; nothing when there are none. -/
def Sql.Clause.ofMembers? (combinator : Combinator) : List Clause → Option Clause
  | [] => none
  | c :: cs => some (.group combinator (c :: cs))

namespace Node

variable {s : Scope}

theorem clause?_rule (r : Rule) : clause? s (.rule r) =
    if r.isComplete then (fun c => some (.condition c)) <$> r.condition s else .ok none := by
  rw [clause?]
  split
  · cases r.condition s <;> rfl
  · rfl

theorem clause?_group (combinator : Combinator) (members : List Node) :
    clause? s (.group combinator members) = Clause.ofMembers? combinator <$> clauses s members := by
  rw [clause?]
  cases clauses s members with
  | error => rfl
  | ok cs => cases cs <;> rfl

theorem clauses_cons (n : Node) (ns : List Node) :
    clauses s (n :: ns) = do return (← n.clause? s).toList ++ (← clauses s ns) := by
  rw [clauses]
  rfl

theorem clauses_cons_eq_ok_iff {n : Node} {ns : List Node} {cs : List Clause} :
    clauses s (n :: ns) = .ok cs ↔
      ∃ c ds, n.clause? s = .ok c ∧ clauses s ns = .ok ds ∧ cs = c.toList ++ ds := by
  simp only [clauses_cons, bind_eq_ok_iff]
  constructor
  · rintro ⟨c, hc, ds, hds, h⟩
    cases h
    exact ⟨c, ds, hc, hds, rfl⟩
  · rintro ⟨c, ds, hc, hds, rfl⟩
    exact ⟨c, hc, ds, hds, rfl⟩

theorem conditionsOf_ofMembers? (combinator : Combinator) (cs : List Clause) :
    Clause.conditionsOf (Clause.ofMembers? combinator cs).toList = Clause.conditionsOf cs := by
  cases cs with
  | nil => rfl
  | cons c cs => simp [Clause.ofMembers?, Clause.conditionsOf, Clause.conditions]

/-- Compiling the members of a group is compiling their complete rules, if the same holds of each
member. -/
theorem mapM_completeRulesOf_of_forall {ns : List Node}
    (h : ∀ n ∈ ns, n.completeRules.mapM (Rule.condition s) =
      (fun c => Clause.conditionsOf c.toList) <$> n.clause? s) :
    (completeRulesOf ns).mapM (Rule.condition s) = Clause.conditionsOf <$> clauses s ns := by
  induction ns with
  | nil => rfl
  | cons n ns ih =>
    have hn := h n List.mem_cons_self
    have ih := ih fun m hm => h m (List.mem_cons_of_mem n hm)
    rw [completeRulesOf, List.mapM_append, hn, ih, clauses_cons]
    cases clause? s n with
    | error => rfl
    | ok c =>
      cases clauses s ns with
      | error => rfl
      | ok cs =>
        have happend : Clause.conditionsOf (c.toList ++ cs) =
            Clause.conditionsOf c.toList ++ Clause.conditionsOf cs := by
          simp [Clause.conditionsOf_eq_flatMap]
        exact congrArg Except.ok happend.symm

theorem mapM_completeRules (n : Node) : n.completeRules.mapM (Rule.condition s) =
    (fun c => Clause.conditionsOf c.toList) <$> n.clause? s := by
  induction n using Node.ind with
  | rule r =>
    rw [completeRules, clause?_rule]
    split
    · cases h : r.condition s with
      | error => simp [h, Functor.map, Except.map, bind, Except.bind]
      | ok c => simp [h, Functor.map, Except.map, bind, Except.bind, pure, Except.pure,
          Clause.conditionsOf, Clause.conditions]
    · rfl
  | group combinator members ih =>
    rw [completeRules, mapM_completeRulesOf_of_forall ih, clause?_group]
    cases clauses s members with
    | error => rfl
    | ok cs => exact congrArg Except.ok (conditionsOf_ofMembers? combinator cs).symm

theorem mapM_completeRulesOf (ns : List Node) :
    (completeRulesOf ns).mapM (Rule.condition s) = Clause.conditionsOf <$> clauses s ns :=
  mapM_completeRulesOf_of_forall fun n _ => n.mapM_completeRules

theorem clauses_of_forall_none {ns : List Node} (h : ∀ n ∈ ns, n.clause? s = .ok none) :
    clauses s ns = .ok [] := by
  induction ns with
  | nil => rfl
  | cons n ns ih =>
    rw [clauses_cons, h n List.mem_cons_self, ih fun m hm => h m (List.mem_cons_of_mem n hm)]
    rfl

/-- A member without a complete rule contributes no clause. -/
theorem clause?_of_incomplete {n : Node} (h : ∀ x ∈ n.rules, x.isComplete = false) :
    n.clause? s = .ok none := by
  induction n using Node.ind with
  | rule r =>
    have hr : r.isComplete = false := h r (by simp [rules])
    rw [clause?_rule, hr]
    rfl
  | group combinator members ih =>
    have hmembers : clauses s members = .ok [] := clauses_of_forall_none fun n hn =>
      ih n hn fun x hx => h x (mem_rulesOf_iff.mpr ⟨n, hn, hx⟩)
    rw [clause?_group, hmembers]
    rfl

theorem clauses_of_incomplete {ns : List Node} (h : ∀ x ∈ rulesOf ns, x.isComplete = false) :
    clauses s ns = .ok [] :=
  clauses_of_forall_none fun n hn => clause?_of_incomplete fun x hx =>
    h x (mem_rulesOf_iff.mpr ⟨n, hn, hx⟩)

/-- The members of a group contribute no clause exactly when they have no complete rule. -/
theorem clauses_eq_nil_iff {ns : List Node} {cs : List Clause} (h : clauses s ns = .ok cs) :
    cs = [] ↔ ∀ x ∈ rulesOf ns, x.isComplete = false := by
  constructor
  · rintro rfl
    have hconditions : (completeRulesOf ns).mapM (Rule.condition s) = .ok [] := by
      rw [mapM_completeRulesOf, h]
      rfl
    rw [← completeRulesOf_eq_nil_iff]
    exact List.forall₂_nil_right_iff.mp (mapM_eq_ok_iff.mp hconditions)
  · intro hrules
    rw [clauses_of_incomplete hrules] at h
    exact (Except.ok.inj h).symm

end Node

/-- The conditions of a filter are those of its complete rules, and the first rule that has none
stops both. -/
theorem Group.mapM_completeRules (s : Scope) (g : Group) :
    g.completeRules.mapM (Rule.condition s) =
      (fun w => Clause.conditionsOf w.clauses) <$> g.condition s := by
  rw [completeRules, Node.mapM_completeRulesOf, condition]
  cases Node.clauses s g.members <;> rfl

/-! ## Numbers -/

theorem Value.isPlain_operand (normalize : Bool) (v : Value) : (v.operand normalize).IsPlain := by
  unfold operand
  split
  · trivial
  · split
    · rename_i h
      exact isPlain_of_numeral? h
    · split <;> trivial
    · trivial

theorem Value.isPlain_orderingOperand (v : Value) : v.orderingOperand.IsPlain := by
  unfold orderingOperand
  split
  · rename_i h
    exact isPlain_of_numeral? h
  · trivial

theorem Operator.isPlain_condition (op : Operator) (column : Sql.ColumnRef) (v : Value) :
    (op.condition column v).IsPlain := by
  have hcompare {subject comparison} (x : Sql.Operand) (h : x.IsPlain) :
      (Condition.compare subject comparison x).IsPlain := by
    simpa [Condition.IsPlain, Condition.operands] using h
  have hin {subject} (vs : List Value) (normalize : Bool) :
      (Condition.isIn subject (vs.map (Value.operand normalize))).IsPlain := by
    simpa [Condition.IsPlain, Condition.operands] using fun v _ => v.isPlain_operand normalize
  cases op with
  | equal | notEqual | other => exact hcompare _ (v.isPlain_operand _)
  | less | greater | atMost | atLeast => exact hcompare _ v.isPlain_orderingOperand
  | contains | beginsWith | endsWith => simp [condition, Condition.IsPlain, Condition.operands,
      Sql.Operand.IsPlain]
  | isNull | isNotNull => simp [condition, Condition.IsPlain, Condition.operands]
  | isIn =>
    simp only [condition]
    split
    · simp [Condition.IsPlain, Condition.operands]
    · exact hin _ _
    · exact hin [v] _

theorem Rule.isPlain_condition {s : Scope} {r : Rule} {c : Condition}
    (h : r.condition s = .ok c) : c.IsPlain := by
  obtain ⟨column, -, h⟩ := bind_eq_ok_iff.mp h
  cases h
  exact Operator.isPlain_condition _ _ _

theorem Group.isPlain_condition {s : Scope} {g : Group} {w : Sql.Where}
    (h : g.condition s = .ok w) : w.IsPlain := by
  have hrules := g.mapM_completeRules s
  rw [h] at hrules
  intro c hc
  obtain ⟨r, -, hr⟩ := exists_of_mem_forall₂ (mapM_eq_ok_iff.mp hrules) hc
  exact Rule.isPlain_condition hr

/-! ## The compiler without settings -/

/-- The compiler with the options that hold when none are given. -/
def Compiler.standard : Compiler := {}

end FilterSelect
