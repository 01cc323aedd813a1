import FilterSelect.Proofs.Pruning

/-!
# What pruning leaves of a filter

Pruning takes members out of a filter and changes nothing else. Out go the rules that cannot be
submitted, and then every group that has lost all its members, however deep they were. So the rules
that are left stand in the same groups as before, none of which is empty, and there is nothing more
to prune.

* `Group.placed`: the rules of a filter, each with the combinators of the groups around it.
* `Group.Within`: one group is nested in another.
* `Node.Culled`: a list of members with some taken out, at any depth.
* `Node.IsFull.prune?_eq`: a full member of submittable rules is left as it is.
* `Group.prune_leaves`: the rules, the groups and the depth of a pruned filter.
-/

namespace FilterSelect

/-! ## Places -/

/-- A rule, and the combinators of the groups around it, from the root of the filter inwards. -/
structure Placed where
  combinators : List Combinator
  rule : Rule

namespace Node

mutual

/-- The rules of a member, in order; `around` has the combinators of the groups around it. -/
def placed (around : List Combinator) : Node → List Placed
  | .rule x => [⟨around, x⟩]
  | .group combinator members => placedOf (around ++ [combinator]) members

/-- The rules of the members of a group, in order. -/
def placedOf (around : List Combinator) : List Node → List Placed
  | [] => []
  | n :: ns => n.placed around ++ placedOf around ns

end

theorem placedOf_append (around : List Combinator) (ns ms : List Node) :
    placedOf around (ns ++ ms) = placedOf around ns ++ placedOf around ms := by
  induction ns with
  | nil => rfl
  | cons n ns ih => rw [List.cons_append, placedOf, ih, placedOf, List.append_assoc]

end Node

/-- The rules of a filter with their places, in order. -/
def Group.placed (g : Group) : List Placed := Node.placedOf [g.combinator] g.members

/-- The first group is nested in the second, at any depth. -/
inductive Group.Within : Group → Group → Prop
  | member {h g : Group} (hmem : h.toNode ∈ g.members) : Within h g
  | deeper {h k g : Group} (hmem : h.toNode ∈ k.members) (hk : Within k g) : Within h g

/-- The rule can be submitted: it is complete, and asks for null or has a value other than the empty
text. -/
def Rule.IsReady (x : Rule) : Prop := ¬ x.IsIncomplete ∧ x.IsFilledIn

theorem Rule.isReady_iff {x : Rule} : x.IsReady ↔ x.isSubmittable = true := by
  rw [IsReady, ← isComplete_iff, isSubmittable_iff]

instance : DecidablePred Rule.IsReady := fun _ => decidable_of_iff' _ Rule.isReady_iff

/-! ## Members that are taken out -/

namespace Node

/-- The second list has the members of the first but for some, at any depth. -/
inductive Culled : List Node → List Node → Prop
  | nil : Culled [] []
  | rule (x : Rule) {ns ms : List Node} (h : Culled ns ms) :
      Culled (.rule x :: ns) (.rule x :: ms)
  | group (combinator : Combinator) {inner rest ns ms : List Node} (hinner : Culled inner rest)
      (h : Culled ns ms) : Culled (.group combinator inner :: ns) (.group combinator rest :: ms)
  | drop (n : Node) {ns ms : List Node} (h : Culled ns ms) : Culled (n :: ns) ms

theorem Culled.depths_le {ns ms : List Node} (h : Culled ns ms) : depths ms ≤ depths ns := by
  induction h with
  | nil => exact Nat.le_refl _
  | rule x _ ih => simpa only [depths, depth, Nat.zero_max] using ih
  | group combinator _ _ ihinner ih =>
    simp only [depths, depth]
    omega
  | drop n _ ih => exact Nat.le_trans ih (Nat.le_max_right _ _)

mutual

theorem culled_prune? (n : Node) {ns ms : List Node} (hrest : Culled ns ms) :
    Culled (n :: ns) (n.prune?.toList ++ ms) := by
  cases n with
  | rule x =>
    rw [prune?]
    split
    · exact .rule x hrest
    · exact .drop _ hrest
  | group combinator members =>
    have hmembers := culled_pruneAll members
    rw [prune?]
    split
    · exact .drop _ hrest
    · rename_i hpruned
      rw [hpruned] at hmembers
      exact .group combinator hmembers hrest

/-- Pruning takes members out and changes none. -/
theorem culled_pruneAll (ns : List Node) : Culled ns (pruneAll ns) := by
  cases ns with
  | nil => exact .nil
  | cons n ns => exact culled_prune? n (culled_pruneAll ns)

end

mutual

theorem placedOf_prune? (around : List Combinator) (n : Node) :
    placedOf around n.prune?.toList = (n.placed around).filter fun p => p.rule.IsReady := by
  cases n with
  | rule x =>
    by_cases hx : x.IsReady
    · simp [prune?, Rule.isReady_iff.mp hx, placedOf, placed, hx]
    · simp [prune?, mt Rule.isReady_iff.mpr hx, placedOf, placed, hx]
  | group combinator members =>
    have hmembers := placedOf_pruneAll (around ++ [combinator]) members
    rw [placed, ← hmembers, prune?]
    cases pruneAll members <;> simp [placedOf, placed]

/-- The rules that can be submitted are left, in order, each at its place. -/
theorem placedOf_pruneAll (around : List Combinator) (ns : List Node) :
    placedOf around (pruneAll ns) = (placedOf around ns).filter fun p => p.rule.IsReady := by
  cases ns with
  | nil => rfl
  | cons n ns =>
    rw [pruneAll, placedOf_append, placedOf_prune? around n, placedOf_pruneAll around ns, placedOf,
      List.filter_append]

end

/-! ## Members that are left as they are -/

theorem pruneAll_eq_self_of_forall {ns : List Node} (h : ∀ n ∈ ns, n.prune? = some n) :
    pruneAll ns = ns := by
  induction ns with
  | nil => rfl
  | cons n ns ih =>
    have ih := ih fun m hm => h m (List.mem_cons_of_mem n hm)
    rw [pruneAll, h n List.mem_cons_self, ih]
    rfl

/-- A full member of submittable rules is left as it is. -/
theorem IsFull.prune?_eq {n : Node} (hn : n.IsFull) (h : ∀ x ∈ n.rules, x.isSubmittable = true) :
    n.prune? = some n := by
  induction hn with
  | rule => rw [prune?, if_pos (h _ (by simp [rules]))]
  | @group combinator members hne hfull ih =>
    have hmembers : pruneAll members = members := pruneAll_eq_self_of_forall fun n hn =>
      ih n hn fun x hx => h x (mem_rulesOf_iff.mpr ⟨n, hn, hx⟩)
    obtain ⟨m, ms, rfl⟩ := List.exists_cons_of_ne_nil hne
    rw [prune?, hmembers]

end Node

namespace Group

/-- The groups nested in a group of full members have members, all of them full. -/
theorem Within.isFull {h g : Group} (hwithin : h.Within g) (hfull : ∀ n ∈ g.members, n.IsFull) :
    h.members ≠ [] ∧ ∀ n ∈ h.members, n.IsFull := by
  have hgroup {k : Group} (hk : k.toNode.IsFull) : k.members ≠ [] ∧ ∀ n ∈ k.members, n.IsFull := by
    cases hk with
    | group hne hmembers => exact ⟨hne, hmembers⟩
  induction hwithin with
  | member hmem => exact hgroup (hfull _ hmem)
  | deeper hmem _ ih => exact hgroup ((ih hfull).2 _ hmem)

theorem prune_prune (g : Group) : g.prune.prune = g.prune := by
  have hrules := Node.rulesOf_pruneAll g.members
  have hleft : ∀ n ∈ g.prune.members, n.prune? = some n := fun n hn =>
    (g.isFull_of_mem_prune n hn).prune?_eq fun x hx => by
      have hmem : x ∈ Node.rulesOf (Node.pruneAll g.members) :=
        Node.mem_rulesOf_iff.mpr ⟨n, hn, hx⟩
      rw [hrules] at hmem
      exact (List.mem_filter.mp hmem).2
  exact congrArg (Group.mk g.combinator) (Node.pruneAll_eq_self_of_forall hleft)

/-- A pruned filter is the filter with members taken out. The rules that can be submitted are left,
in order, each with the same combinators around it; no group nested in the filter is empty; and
pruning it once more changes nothing. -/
theorem prune_leaves (g : Group) :
    g.prune.combinator = g.combinator ∧ Node.Culled g.members g.prune.members ∧
    (g.prune.placed = g.placed.filter fun p => p.rule.IsReady) ∧
    (∀ h : Group, h.Within g.prune → h.members ≠ []) ∧
    g.prune.depth ≤ g.depth ∧ g.prune.prune = g.prune := by
  have hculled := Node.culled_pruneAll g.members
  refine ⟨rfl, hculled, Node.placedOf_pruneAll _ _, fun h hwithin => ?_, ?_, g.prune_prune⟩
  · exact (hwithin.isFull g.isFull_of_mem_prune).1
  · exact Nat.add_le_add_left hculled.depths_le 1

/-- A filter some of whose rules lack a value. Null and the empty list are values. -/
def halfFilledIn : Group := ⟨.or, [
  .group .and [.group .or [.group .and [.rule ⟨"name", some .equal, some (.text "")⟩]],
    .rule ⟨"age", some .less, none⟩],
  .rule ⟨"name", some .notEqual, some .null⟩,
  .group .and [.group .or [], .rule ⟨"tags", some .isIn, some (.list [])⟩,
    .rule ⟨"city.", some .equal, some (.int 1)⟩, .rule ⟨"age", some .isNull, none⟩]]⟩

theorem prune_leaves_halfFilledIn :
    ∃ h : Group, h.Within halfFilledIn.prune ∧ h.members ≠ [] ∧
      halfFilledIn.prune.placed = [⟨[.or], ⟨"name", some .notEqual, some .null⟩⟩,
        ⟨[.or, .and], ⟨"tags", some .isIn, some (.list [])⟩⟩,
        ⟨[.or, .and], ⟨"age", some .isNull, none⟩⟩] ∧
      halfFilledIn.prune.depth ≤ halfFilledIn.depth ∧
      halfFilledIn.prune.prune = halfFilledIn.prune := by
  obtain ⟨-, -, hplaced, hnested, hdepth, htwice⟩ := prune_leaves halfFilledIn
  have hwithin : Within ⟨.and, [.rule ⟨"tags", some .isIn, some (.list [])⟩,
      .rule ⟨"age", some .isNull, none⟩]⟩ halfFilledIn.prune :=
    .member (List.mem_cons_of_mem _ List.mem_cons_self)
  exact ⟨_, hwithin, hnested _ hwithin, hplaced.trans rfl, hdepth, htwice⟩

end Group

end FilterSelect
