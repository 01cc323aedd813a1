import FilterSelect.Filter.Tree

/-!
# The rules of a filter tree

* `Node.ind`: induction on a member, with the hypothesis for every member of a group.
* `Group.rules`: the rules of a filter, complete or not, at any depth, in order.
-/

namespace FilterSelect

/-- Induction on a member, with the hypothesis for every member of a group. -/
@[elab_as_elim]
theorem Node.ind {motive : Node → Prop} (rule : ∀ r, motive (.rule r))
    (group : ∀ combinator members, (∀ n ∈ members, motive n) → motive (.group combinator members))
    (n : Node) : motive n := by
  refine @Node.rec motive (fun ns => ∀ n ∈ ns, motive n) rule group (by simp)
    (fun n ns hn hns => ?_) n
  simpa using ⟨hn, hns⟩

namespace Node

mutual

/-- The rules of a member, in order. -/
def rules : Node → List Rule
  | .rule r => [r]
  | .group _ members => rulesOf members

/-- The rules of the members of a group, in order. -/
def rulesOf : List Node → List Rule
  | [] => []
  | n :: ns => n.rules ++ rulesOf ns

end

theorem rulesOf_append (ns ms : List Node) : rulesOf (ns ++ ms) = rulesOf ns ++ rulesOf ms := by
  induction ns with
  | nil => rfl
  | cons n ns ih => rw [List.cons_append, rulesOf, ih, rulesOf, List.append_assoc]

theorem mem_rulesOf_iff {ns : List Node} {r : Rule} : r ∈ rulesOf ns ↔ ∃ n ∈ ns, r ∈ n.rules := by
  induction ns with
  | nil => simp [rulesOf]
  | cons n ns ih => simp [rulesOf, ih]

theorem depths_le_iff {ns : List Node} {d : Nat} : depths ns ≤ d ↔ ∀ n ∈ ns, n.depth ≤ d := by
  induction ns with
  | nil => simp [depths]
  | cons n ns ih => rw [depths, Nat.max_le, ih, List.forall_mem_cons]

end Node

/-- The rules of a filter, in order. -/
def Group.rules (g : Group) : List Rule := Node.rulesOf g.members

end FilterSelect
