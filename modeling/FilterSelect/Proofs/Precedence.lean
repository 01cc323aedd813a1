import FilterSelect.Proofs.Filter.Rules
import FilterSelect.Proofs.Sql.Expression

/-!
# The text of a filter means the filter

The text of a filter, read with the precedence of SQL, is true, unknown or false exactly when the
filter is, whatever its conditions are. The filter is evaluated on its tree: a group combines the
members that contribute, and a member that contributes nothing counts as neither true nor false.
The compiler knows nothing of precedence; what makes it right is that every inner group stands in
parentheses of its own, so that each level has one combinator only.

* `Group.eval?`: the truth of a filter when its complete rules have truth values of their own.
* `Group.nested`: the inner groups that contribute.
* `Denotes`: the clauses of members are read as expressions with the meaning of the members.
* `Compiler.parse_compileFilter`: the text of a filter is read with its meaning.
-/

namespace FilterSelect

open Sql (Clause Condition Expr Token Truth)

/-! ## The meaning of a filter -/

/-- What a combinator makes of the members that contribute; nothing when none does. -/
def Combinator.combine? (c : Combinator) (ts : List Truth) : Option Truth :=
  if ts.isEmpty then none else some (Sql.combine c ts)

namespace Node

mutual

/-- The truth of a member, if it contributes, when the complete rule at position `i` of the filter
has the truth `v i`. `k` is the position of the first complete rule of the member. -/
def eval? (v : Nat → Truth) (k : Nat) : Node → Option Truth
  | .rule r => if r.isComplete then some (v k) else none
  | .group combinator members => combinator.combine? (evals v k members)

/-- The truths of the members that contribute. -/
def evals (v : Nat → Truth) (k : Nat) : List Node → List Truth
  | [] => []
  | n :: ns => (n.eval? v k).toList ++ evals v (k + n.completeRules.length) ns

end

mutual

/-- The groups of a member that contribute, the outer ones first, each as the position of its first
complete rule and the number of its complete rules. -/
def nested (k : Nat) : Node → List (Nat × Nat)
  | .rule _ => []
  | .group _ members =>
    let count := (completeRulesOf members).length
    if count = 0 then [] else (k, count) :: nestedOf k members

/-- The groups of members that contribute. -/
def nestedOf (k : Nat) : List Node → List (Nat × Nat)
  | [] => []
  | n :: ns => n.nested k ++ nestedOf (k + n.completeRules.length) ns

end

theorem evals_append (v : Nat → Truth) (k : Nat) (ns ms : List Node) :
    evals v k (ns ++ ms) = evals v k ns ++ evals v (k + (completeRulesOf ns).length) ms := by
  induction ns generalizing k with
  | nil => simp [evals, completeRulesOf]
  | cons n ns ih => simp [evals, completeRulesOf, ih, Nat.add_assoc]

theorem nestedOf_append (k : Nat) (ns ms : List Node) :
    nestedOf k (ns ++ ms) = nestedOf k ns ++ nestedOf (k + (completeRulesOf ns).length) ms := by
  induction ns generalizing k with
  | nil => simp [nestedOf, completeRulesOf]
  | cons n ns ih => simp [nestedOf, completeRulesOf, ih, Nat.add_assoc]

theorem completeRulesOf_append (ns ms : List Node) :
    completeRulesOf (ns ++ ms) = completeRulesOf ns ++ completeRulesOf ms := by
  induction ns with
  | nil => rfl
  | cons n ns ih => rw [List.cons_append, completeRulesOf, ih, completeRulesOf, List.append_assoc]

end Node

/-- The truth of a filter when its complete rule at position `i` has the truth `v i`; none when no
rule is complete. -/
def Group.eval? (v : Nat → Truth) (g : Group) : Option Truth :=
  g.combinator.combine? (Node.evals v 0 g.members)

/-- The inner groups of a filter that contribute. -/
def Group.nested (g : Group) : List (Nat × Nat) := Node.nestedOf 0 g.members

/-! ## Conditions -/

theorem Operator.isFilled_condition (op : Operator) (column : Sql.ColumnRef) (v : Value) :
    (op.condition column v).IsFilled := by
  cases op with
  | isIn =>
    simp only [condition]
    split
    · trivial
    · rename_i members hne
      exact fun h => hne (List.map_eq_nil_iff.mp h)
    · simp [Condition.IsFilled]
  | _ => trivial

theorem Rule.isFilled_condition {s : Scope} {r : Rule} {c : Condition}
    (h : r.condition s = .ok c) : c.IsFilled := by
  obtain ⟨column, -, h⟩ := bind_eq_ok_iff.mp h
  cases h
  exact Operator.isFilled_condition _ _ _

/-! ## Clauses are read with the meaning of their members -/

/-- The clauses `cs` of the members `ns` are read as the expressions `es`, which have the rules,
the truth and the groups of the members. -/
structure Denotes (o : Options) (s : Scope) (cs : List Clause) (ns : List Node) (es : List Expr) :
    Prop where
  reads : List.Forall₂ Sql.IsOperand (Clause.tokensOf o cs) es
  leaves : List.Forall₂ (fun (r : Rule) ts => ∃ x, r.condition s = .ok x ∧ ts = x.tokens o)
    (Node.completeRulesOf ns) (es.flatMap Expr.leaves)
  evals : ∀ v k, Node.evals v k ns = Expr.evals v k es
  nested : ∀ k, Node.nestedOf k ns = Expr.groupsOf k es

section Denoting

variable {o : Options} {s : Scope}

namespace Denotes

theorem nil : Denotes o s [] [] [] := ⟨.nil, .nil, fun _ _ => rfl, fun _ => rfl⟩

theorem append {cs ds : List Clause} {ns ms : List Node} {es fs : List Expr}
    (h : Denotes o s cs ns es) (h' : Denotes o s ds ms fs) :
    Denotes o s (cs ++ ds) (ns ++ ms) (es ++ fs) where
  reads := by
    have hreads := List.rel_append h.reads h'.reads
    simpa only [Clause.tokensOf_eq_map, List.map_append] using hreads
  leaves := by
    rw [Node.completeRulesOf_append, List.flatMap_append]
    exact List.rel_append h.leaves h'.leaves
  evals v k := by
    rw [Node.evals_append, Expr.evals_append, h.evals, h'.evals, h.leaves.length_eq]
  nested k := by
    rw [Node.nestedOf_append, Expr.groupsOf_append, h.nested, h'.nested, h.leaves.length_eq]

end Denotes

/-- A complete rule is read as a predicate. -/
theorem denotes_rule (hk : Sql.isKeyword o.normalizer = false) {r : Rule} {x : Condition}
    (hr : r.isComplete = true) (hx : r.condition s = .ok x) :
    Denotes o s [.condition x] [.rule r] [.predicate (x.tokens o)] where
  reads := .cons (Sql.isOperand_condition hk (Rule.isFilled_condition hx)) .nil
  leaves := by
    simp only [Node.completeRulesOf, Node.completeRules, hr, if_true]
    exact .cons ⟨x, hx, rfl⟩ .nil
  evals v k := by simp [Node.evals, Node.eval?, hr, Expr.evals, Expr.eval]
  nested k := by simp [Node.nestedOf, Node.nested, Expr.groupsOf, Expr.groups]

/-- A rule that is not complete is not read. -/
theorem denotes_incomplete {r : Rule} (hr : ¬ r.isComplete = true) :
    Denotes o s [] [.rule r] [] where
  reads := .nil
  leaves := by simp [Node.completeRulesOf, Node.completeRules, hr]
  evals v k := by simp [Node.evals, Node.eval?, hr, Expr.evals]
  nested k := by simp [Node.nestedOf, Node.nested, Expr.groupsOf]

/-- A group without clauses is not read. -/
theorem denotes_empty (combinator : Combinator) {members : List Node}
    (h : Denotes o s [] members []) : Denotes o s [] [.group combinator members] [] := by
  have hrules : Node.completeRulesOf members = [] := List.forall₂_nil_right_iff.mp h.leaves
  refine ⟨.nil, ?_, fun v k => ?_, fun k => ?_⟩
  · simp [Node.completeRulesOf, Node.completeRules, hrules]
  · simp [Node.evals, Node.eval?, h.evals, Expr.evals, Combinator.combine?]
  · simp [Node.nestedOf, Node.nested, hrules, Expr.groupsOf]

/-- A group with clauses is read as their chain in parentheses. -/
theorem denotes_group (combinator : Combinator) {members : List Node} {c : Clause}
    {cs : List Clause} {e : Expr} {es : List Expr} (h : Denotes o s (c :: cs) members (e :: es)) :
    Denotes o s [.group combinator (c :: cs)] [.group combinator members]
      [.parens (.chain combinator e es)] := by
  have hcount := h.leaves.length_eq
  have hleaf : e.leaves ≠ [] := e.leaves_ne_nil
  obtain ⟨hfirst, hrest⟩ := List.forall₂_cons.mp h.reads
  refine ⟨.cons (Sql.isOperand_parens hfirst hrest) .nil, ?_, fun v k => ?_, fun k => ?_⟩
  · simpa [Node.completeRulesOf, Node.completeRules, Expr.leaves, Expr.leaves_chain] using h.leaves
  · simp [Node.evals, Node.eval?, h.evals, Expr.evals, Expr.eval, Expr.eval_chain,
      Combinator.combine?]
  · have hpos : ((e :: es).flatMap Expr.leaves).length ≠ 0 := by simp [hleaf]
    simp only [Node.nestedOf, Node.nested, if_neg hpos, Expr.groupsOf, Expr.groups,
      Expr.groups_chain, Expr.leaves_chain, h.nested, hcount]

/-- The clauses of members are read with their meaning, if that of each member is. -/
theorem denotes_clauses_of_forall {ns : List Node}
    (h : ∀ n ∈ ns, ∀ c, n.clause? s = .ok c → ∃ es, Denotes o s c.toList [n] es)
    {cs : List Clause} (hcs : Node.clauses s ns = .ok cs) : ∃ es, Denotes o s cs ns es := by
  induction ns generalizing cs with
  | nil =>
    cases hcs
    exact ⟨[], .nil⟩
  | cons n ns ih =>
    obtain ⟨c, ds, hc, hds, rfl⟩ := Node.clauses_cons_eq_ok_iff.mp hcs
    obtain ⟨es, hes⟩ := h n List.mem_cons_self c hc
    obtain ⟨fs, hfs⟩ := ih (fun m hm => h m (List.mem_cons_of_mem n hm)) hds
    exact ⟨es ++ fs, hes.append hfs⟩

theorem Node.denotes_clause? (hk : Sql.isKeyword o.normalizer = false) (n : Node) :
    ∀ c, n.clause? s = .ok c → ∃ es, Denotes o s c.toList [n] es := by
  induction n using Node.ind with
  | rule r =>
    intro c hc
    rw [clause?_rule] at hc
    split at hc
    · rename_i hr
      obtain ⟨x, hx, rfl⟩ := map_eq_ok_iff.mp hc
      exact ⟨_, denotes_rule hk hr hx⟩
    · rename_i hr
      cases hc
      exact ⟨_, denotes_incomplete hr⟩
  | group combinator members ih =>
    intro c hc
    rw [clause?_group] at hc
    obtain ⟨cs, hcs, rfl⟩ := map_eq_ok_iff.mp hc
    obtain ⟨es, hes⟩ := denotes_clauses_of_forall ih hcs
    cases cs with
    | nil =>
      have hnil : es = [] := List.forall₂_nil_left_iff.mp hes.reads
      subst hnil
      exact ⟨_, denotes_empty combinator hes⟩
    | cons c cs =>
      obtain ⟨e, es, -, -, rfl⟩ := List.forall₂_cons_left_iff.mp hes.reads
      exact ⟨_, denotes_group combinator hes⟩

end Denoting

/-- The text of a filter is an expression of SQL. Its predicates are the conditions of the complete
rules, in order; it has the truth of the filter, whatever truth its predicates have; and its
grouping parentheses are those of the inner groups that contribute, one pair each. -/
theorem Compiler.parse_compileFilter {c : Compiler} {r : Request} {sql : String}
    (hk : Sql.isKeyword c.options.normalizer = false) (h : c.compileFilter r = .ok sql)
    (hne : sql ≠ "") : ∃ ts e, Sql.lex? sql = some ts ∧ Sql.parse? ts = some e ∧
      List.Forall₂ (fun (x : Rule) leaf => ∃ condition, x.condition r.scope = .ok condition ∧
        Sql.lex? (condition.sql c.options) = some leaf) r.filter.completeRules e.leaves ∧
      (∀ v, r.filter.eval? v = some (e.eval v 0)) ∧ e.groups 0 = r.filter.nested := by
  obtain ⟨w, hw, rfl⟩ := map_eq_ok_iff.mp h
  have hread := Sql.Where.phrase c.usable (Group.isPlain_condition hw)
  obtain ⟨cs, hcs, hw⟩ := bind_eq_ok_iff.mp hw
  cases hw
  obtain ⟨es, hes⟩ := denotes_clauses_of_forall (fun n _ => n.denotes_clause? hk) hcs
  cases cs with
  | nil => exact absurd rfl hne
  | cons x xs =>
    obtain ⟨e, es, hfirst, hrest, rfl⟩ := List.forall₂_cons_left_iff.mp hes.reads
    refine ⟨_, .chain r.filter.combinator e es, hread.lex?_eq, Sql.parse?_members hfirst hrest, ?_,
      fun v => ?_, ?_⟩
    · rw [Expr.leaves_chain]
      refine hes.leaves.imp ?_
      rintro rule leaf ⟨condition, hcondition, rfl⟩
      exact ⟨condition, hcondition,
        (Condition.phrase c.usable (Rule.isPlain_condition hcondition)).lex?_eq⟩
    · simp [Group.eval?, hes.evals, Expr.eval_chain, Expr.evals, Combinator.combine?]
    · rw [Expr.groups_chain, ← hes.nested]
      rfl

/-- A filter whose inner groups contribute alone, with others, or not at all. -/
def Request.nestedGroups : Request where
  filter := ⟨.and, [.rule ⟨"a", some .isNull, none⟩,
    .group .or [.rule ⟨"b", some .isIn, some (.list [.int 1, .int 2])⟩,
      .group .and [.rule ⟨"", some .equal, none⟩, .group .or []],
      .group .and [.rule ⟨"c", some .contains, some (.text ") OR (")⟩]],
    .rule ⟨"d", none, some .null⟩]⟩

theorem Compiler.parse_nestedGroups :
    ∃ sql ts e, Compiler.standard.compileFilter .nestedGroups = .ok sql ∧ sql ≠ "" ∧
      Sql.isKeyword "unaccent" = false ∧ Sql.lex? sql = some ts ∧ Sql.parse? ts = some e ∧
      List.Forall₂ (fun (x : Rule) leaf => ∃ condition,
        x.condition Request.nestedGroups.scope = .ok condition ∧
          Sql.lex? (condition.sql {}) = some leaf)
        Request.nestedGroups.filter.completeRules e.leaves ∧
      (∀ v, Sql.combine .and [v 0, Sql.combine .or [v 1, Sql.combine .and [v 2]]] = e.eval v 0) ∧
      [(1, 2), (2, 1)] = e.groups 0 := by
  have hk : Sql.isKeyword "unaccent" = false := by decide +kernel
  have hne : Sql.Where.sql {} ⟨.and, [.condition (.isNull ⟨.primary, "a"⟩), .group .or [
      .condition (.isIn ⟨⟨.primary, "b"⟩, false⟩ [.number "1", .number "2"]),
      .group .and [.condition (.isLike ⟨.primary, "c"⟩ "%) OR (%")]]]⟩ ≠ "" := by decide +kernel
  obtain ⟨ts, e, hlex, hparse, hleaves, heval, hgroups⟩ :=
    parse_compileFilter (c := .standard) (r := .nestedGroups) hk rfl hne
  exact ⟨_, ts, e, rfl, hne, hk, hlex, hparse, hleaves, fun v => Option.some.inj (heval v),
    hgroups.symm⟩

end FilterSelect
