import FilterSelect.Proofs.Thinning

/-!
# Pruned filters

Pruning keeps the rules that can be submitted, and the compiler those that are complete. A pruned
filter has nothing left that the compiler passes over: each of its rules becomes one condition, at
the place of the rule. The two differ only in complete rules that lack a value.

* `Node.rulesOf_pruneAll`: pruning keeps the submittable rules, in order.
* `Node.IsFull`: a member all of whose rules are complete, and none of whose groups is empty.
* `Node.thinned_pruneAll`: pruning only takes out what does not count, if all complete rules have a
  value or need none.
* `Group.layout`: the text of a filter, given that of each rule.
* `Compiler.compile_prune`: compiling a pruned request, compared with compiling it as it was.
-/

namespace FilterSelect

open Sql (Clause Condition)

/-! ## Submittable rules -/

/-- The rule asks for null, or has a value other than the empty text. -/
def Rule.IsFilledIn (x : Rule) : Prop :=
  x.operator = some .isNull ∨ x.operator = some .isNotNull ∨ ∃ v, x.value = some v ∧ v ≠ .text ""

theorem Rule.isSubmittable_iff {x : Rule} :
    x.isSubmittable = true ↔ x.isComplete = true ∧ x.IsFilledIn := by
  have hnull : x.operator.any Operator.isNullTest = true ↔
      x.operator = some .isNull ∨ x.operator = some .isNotNull := by
    cases x.operator with
    | none => simp
    | some op => cases op <;> simp [Operator.isNullTest]
  have hvalue : x.hasValue = true ↔ ∃ v, x.value = some v ∧ v ≠ .text "" := by
    unfold hasValue
    cases x.value with
    | none => simp
    | some v => cases v <;> simp
  rw [isSubmittable, Bool.and_eq_true, Bool.or_eq_true, hnull, hvalue, IsFilledIn, or_assoc]

namespace Node

mutual

theorem rulesOf_prune? (n : Node) :
    rulesOf n.prune?.toList = n.rules.filter Rule.isSubmittable := by
  cases n with
  | rule x => cases hx : x.isSubmittable <;> simp [prune?, rulesOf, rules, hx]
  | group combinator members =>
    have hmembers := rulesOf_pruneAll members
    rw [rules, ← hmembers, prune?]
    cases pruneAll members <;> simp [rulesOf, rules]

/-- Pruning keeps the submittable rules, in order. -/
theorem rulesOf_pruneAll (ns : List Node) :
    rulesOf (pruneAll ns) = (rulesOf ns).filter Rule.isSubmittable := by
  cases ns with
  | nil => rfl
  | cons n ns =>
    rw [pruneAll, rulesOf_append, rulesOf_prune? n, rulesOf_pruneAll ns, rulesOf,
      List.filter_append]

end

mutual

theorem thinned_prune? {n : Node} (h : ∀ x ∈ n.rules, x.IsIncomplete ∨ x.isSubmittable = true)
    {ns ms : List Node} (hrest : Thinned ns ms) : Thinned (n :: ns) (n.prune?.toList ++ ms) := by
  cases n with
  | rule x =>
    rw [prune?]
    cases hx : x.isSubmittable with
    | true => exact .rule x hrest
    | false =>
      have hincomplete := (h x (by simp [rules])).resolve_right (by simp [hx])
      exact .dropRule hincomplete hrest
  | group combinator members =>
    have hmembers := thinned_pruneAll h
    rw [prune?]
    cases hpruned : pruneAll members with
    | nil =>
      -- Nothing is left of the group, so none of its rules is submittable.
      have hnone := rulesOf_pruneAll members
      rw [hpruned, rulesOf, eq_comm, List.filter_eq_nil_iff] at hnone
      exact .dropGroup (fun x hx => (h x hx).resolve_right (hnone x hx)) hrest
    | cons m rest =>
      rw [hpruned] at hmembers
      exact .group combinator hmembers hrest

/-- Pruning takes out only what does not count, if all complete rules are submittable. -/
theorem thinned_pruneAll {ns : List Node}
    (h : ∀ x ∈ rulesOf ns, x.IsIncomplete ∨ x.isSubmittable = true) :
    Thinned ns (pruneAll ns) := by
  cases ns with
  | nil => exact .nil
  | cons n ns =>
    rw [rulesOf, List.forall_mem_append] at h
    exact thinned_prune? h.1 (thinned_pruneAll h.2)

end

end Node

/-! ## Full filters -/

/-- The text of the condition of a rule; empty when the rule has none. -/
def Rule.sql (s : Scope) (o : Options) (x : Rule) : String :=
  match x.condition s with
  | .ok c => c.sql o
  | .error _ => ""

namespace Node

/-- All rules of the member are complete, and no group in it is empty. -/
inductive IsFull : Node → Prop
  | rule {x : Rule} (hx : x.isComplete = true) : IsFull (.rule x)
  | group {combinator : Combinator} {members : List Node} (hne : members ≠ [])
      (h : ∀ n ∈ members, IsFull n) : IsFull (.group combinator members)

theorem mem_pruneAll_iff {ns : List Node} {m : Node} :
    m ∈ pruneAll ns ↔ ∃ n ∈ ns, n.prune? = some m := by
  induction ns with
  | nil => simp [pruneAll]
  | cons n ns ih => simp [pruneAll, ih]

theorem isFull_of_prune? {n m : Node} (h : n.prune? = some m) : m.IsFull := by
  induction n using Node.ind generalizing m with
  | rule x =>
    rw [prune?] at h
    split at h
    · rename_i hx
      cases h
      exact .rule (Rule.isSubmittable_iff.mp hx).1
    · cases h
  | group combinator members ih =>
    have hmembers : ∀ k ∈ pruneAll members, k.IsFull := by
      intro k hk
      obtain ⟨n, hn, hprune⟩ := mem_pruneAll_iff.mp hk
      exact ih n hn hprune
    rw [prune?] at h
    split at h
    · cases h
    · rename_i hpruned
      cases h
      rw [hpruned] at hmembers
      exact .group (List.cons_ne_nil _ _) hmembers

mutual

/-- The text of a member, given that of each rule. -/
def layout (text : Rule → String) : Node → String
  | .rule x => text x
  | .group combinator members =>
    "(" ++ combinator.separator.intercalate (layouts text members) ++ ")"

/-- The texts of the members of a group, given that of each rule. -/
def layouts (text : Rule → String) : List Node → List String
  | [] => []
  | n :: ns => n.layout text :: layouts text ns

end

section

variable {s : Scope} {o : Options}

/-- Members have one clause each, if each has its own. -/
theorem sqls_clauses_of_forall {ns : List Node}
    (h : ∀ n ∈ ns, ∃ c, n.clause? s = .ok (some c) ∧ c.sql o = n.layout (Rule.sql s o)) :
    ∃ cs, clauses s ns = .ok cs ∧ cs.length = ns.length ∧
      Clause.sqls o cs = layouts (Rule.sql s o) ns := by
  induction ns with
  | nil => exact ⟨[], rfl, rfl, rfl⟩
  | cons n ns ih =>
    obtain ⟨c, hc, htext⟩ := h n List.mem_cons_self
    obtain ⟨cs, hcs, hlength, htexts⟩ := ih fun m hm => h m (List.mem_cons_of_mem n hm)
    refine ⟨c :: cs, clauses_cons_eq_ok_iff.mpr ⟨some c, cs, hc, hcs, rfl⟩, ?_, ?_⟩
    · rw [List.length_cons, List.length_cons, hlength]
    · rw [Clause.sqls, layouts, htext, htexts]

theorem sql_clause? {n : Node} (hn : n.IsFull) (h : ∀ x ∈ n.rules, ∃ c, x.condition s = .ok c) :
    ∃ c, n.clause? s = .ok (some c) ∧ c.sql o = n.layout (Rule.sql s o) := by
  induction hn with
  | @rule x hx =>
    obtain ⟨c, hc⟩ := h x (by simp [rules])
    refine ⟨.condition c, ?_, ?_⟩
    · rw [clause?_rule, hx, hc]
      rfl
    · rw [layout, Rule.sql, hc, Clause.sql]
  | @group combinator members hne hfull ih =>
    obtain ⟨cs, hcs, hlength, htexts⟩ := sqls_clauses_of_forall fun n hn => ih n hn fun x hx =>
      h x (mem_rulesOf_iff.mpr ⟨n, hn, hx⟩)
    have hsome : cs ≠ [] := by
      rwa [← List.length_pos_iff, hlength, List.length_pos_iff]
    obtain ⟨d, ds, rfl⟩ := List.exists_cons_of_ne_nil hsome
    refine ⟨.group combinator (d :: ds), ?_, ?_⟩
    · rw [clause?_group, hcs]
      rfl
    · rw [Clause.sql, layout, htexts]

end

theorem IsFull.isComplete {n : Node} (hn : n.IsFull) : ∀ x ∈ n.rules, x.isComplete = true := by
  induction hn with
  | rule hx => simpa [rules] using hx
  | group hne h ih =>
    intro x hx
    obtain ⟨n, hn, hx⟩ := mem_rulesOf_iff.mp hx
    exact ih n hn x hx

end Node

namespace Group

/-- The text of a filter, given that of each rule. -/
def layout (text : Rule → String) (g : Group) : String :=
  g.combinator.separator.intercalate (Node.layouts text g.members)

theorem isFull_of_mem_prune (g : Group) : ∀ n ∈ g.prune.members, n.IsFull := by
  intro n hn
  obtain ⟨m, -, hprune⟩ := Node.mem_pruneAll_iff.mp hn
  exact Node.isFull_of_prune? hprune

theorem thinned_prune {g : Group} (h : ∀ x ∈ g.rules, ¬ x.IsIncomplete → x.IsFilledIn) :
    g.Thinned g.prune := by
  refine ⟨rfl, Node.thinned_pruneAll fun x hx => ?_⟩
  by_cases hincomplete : x.IsIncomplete
  · exact .inl hincomplete
  · have hcomplete : x.isComplete = true := Rule.isComplete_iff.mpr hincomplete
    exact .inr (Rule.isSubmittable_iff.mpr ⟨hcomplete, h x hx hincomplete⟩)

/-- A filter has a condition when all its complete rules have one. -/
theorem exists_condition_iff {s : Scope} {g : Group} :
    (∃ w, g.condition s = .ok w) ↔ ∀ x ∈ g.rules, x.isComplete = true →
      ∃ c, x.condition s = .ok c := by
  rw [← fault?_eq_none_iff, ← fault?_map fun w => Clause.conditionsOf w.clauses,
    ← g.mapM_completeRules, fault?_eq_none_iff, exists_mapM_eq_ok_iff]
  simp only [mem_completeRules_iff, and_imp]

theorem exists_condition_prune {s : Scope} {g : Group} (h : ∃ w, g.condition s = .ok w) :
    ∃ w, g.prune.condition s = .ok w := by
  rw [exists_condition_iff] at h ⊢
  intro x hx
  rw [rules, prune, Node.rulesOf_pruneAll, List.mem_filter] at hx
  exact h x hx.1

/-- The text of a filter whose members are full has the condition of each rule at its place, and
there is one clause for each member. -/
theorem sql_eq_layout {s : Scope} {g : Group} (hfull : ∀ n ∈ g.members, n.IsFull) {w : Sql.Where}
    (h : g.condition s = .ok w) (o : Options) :
    (∀ x ∈ g.rules, ∃ c, x.condition s = .ok c) ∧ w.clauses.length = g.members.length ∧
      w.sql o = g.layout (Rule.sql s o) := by
  have hrules : ∀ x ∈ g.rules, ∃ c, x.condition s = .ok c := by
    intro x hx
    obtain ⟨n, hn, hmem⟩ := Node.mem_rulesOf_iff.mp hx
    exact exists_condition_iff.mp ⟨w, h⟩ x hx ((hfull n hn).isComplete x hmem)
  obtain ⟨cs, hcs, hlength, htexts⟩ := Node.sqls_clauses_of_forall (o := o) fun n hn =>
    Node.sql_clause? (hfull n hn) fun x hx => hrules x (Node.mem_rulesOf_iff.mpr ⟨n, hn, hx⟩)
  rw [condition, hcs] at h
  cases h
  exact ⟨hrules, hlength, by rw [Sql.Where.sql, htexts, layout]⟩

theorem clauses_eq_nil_iff_isEmpty {s : Scope} {g : Group} (hfull : ∀ n ∈ g.members, n.IsFull)
    {w : Sql.Where} (h : g.condition s = .ok w) : w.clauses = [] ↔ g.isEmpty = true := by
  obtain ⟨-, hlength, -⟩ := sql_eq_layout hfull h {}
  rw [isEmpty, List.isEmpty_iff, ← List.length_eq_zero_iff, hlength, List.length_eq_zero_iff]

end Group

namespace Request

theorem select_prune {r : Request} (h : ∃ s, r.select = .ok s) : ∃ s, r.prune.select = .ok s := by
  obtain ⟨s, hs⟩ := h
  obtain ⟨htable, hjoins, hprojection, hw, -, -⟩ := select_eq_ok_iff.mp hs
  obtain ⟨w, hw⟩ := Group.exists_condition_prune ⟨_, hw⟩
  exact ⟨⟨s.projection, r.table, r.joins, w⟩,
    select_eq_ok_iff.mpr ⟨htable, hjoins, hprojection, hw, rfl, rfl⟩⟩

end Request

namespace Compiler

/-- A request that compiles still does when it is pruned. If each complete rule asks for null or has
a value other than the empty text, pruning changes neither the text nor the fault. The text of a
pruned filter has the condition of each rule that is left at the place of the rule; so it is empty
exactly when no member is left, and the statement has a condition exactly when one is. -/
theorem compile_prune (c : Compiler) (r : Request) :
    ((∃ sql, c.compile r = .ok sql) → ∃ sql, c.compile r.prune = .ok sql) ∧
    ((∃ sql, c.compileFilter r = .ok sql) → ∃ sql, c.compileFilter r.prune = .ok sql) ∧
    ((∀ x ∈ r.filter.rules, ¬ x.IsIncomplete → x.IsFilledIn) →
      c.compile r.prune = c.compile r ∧ c.compileFilter r.prune = c.compileFilter r) ∧
    (∀ sql, c.compileFilter r.prune = .ok sql →
      (∀ x ∈ r.prune.filter.rules, ∃ condition, x.condition r.scope = .ok condition) ∧
      sql = r.prune.filter.layout (Rule.sql r.scope c.options) ∧
      (sql = "" ↔ r.prune.filter.isEmpty = true)) ∧
    ∀ sql, c.compile r.prune = .ok sql →
      Sql.HasWhereIff sql (r.prune.filter.isEmpty = false) := by
  have hfull := r.filter.isFull_of_mem_prune
  refine ⟨?_, ?_, fun h => ?_, fun sql h => ?_, fun sql h => ?_⟩
  · rintro ⟨sql, h⟩
    obtain ⟨s, hs, -⟩ := map_eq_ok_iff.mp h
    obtain ⟨t, ht⟩ := Request.select_prune ⟨s, hs⟩
    exact ⟨_, map_eq_ok_iff.mpr ⟨t, ht, rfl⟩⟩
  · rintro ⟨sql, h⟩
    obtain ⟨w, hw, -⟩ := map_eq_ok_iff.mp h
    obtain ⟨v, hv⟩ := Group.exists_condition_prune ⟨w, hw⟩
    exact ⟨_, map_eq_ok_iff.mpr ⟨v, hv, rfl⟩⟩
  · have hthin : r.filter.Thinned r.filter.prune := Group.thinned_prune h
    have hcondition := Group.condition_thinned (s := r.scope) hthin
    have hselect := Request.select_thinned hthin
    exact ⟨congrArg (Sql.Select.sql c.options <$> ·) hselect,
      congrArg (Sql.Where.sql c.options <$> ·) hcondition⟩
  · obtain ⟨w, hw, rfl⟩ := map_eq_ok_iff.mp h
    obtain ⟨hrules, -, htext⟩ := Group.sql_eq_layout hfull hw c.options
    refine ⟨hrules, htext, ?_⟩
    rw [Sql.Where.sql_eq_empty_iff, Group.clauses_eq_nil_iff_isEmpty hfull hw]
    rfl
  · obtain ⟨s, hs, rfl⟩ := map_eq_ok_iff.mp h
    obtain ⟨-, -, -, hw, -, -⟩ := Request.select_eq_ok_iff.mp hs
    have hwhere := Sql.Select.hasWhereIff c.usable (Group.isPlain_condition hw)
    rw [ne_eq, Group.clauses_eq_nil_iff_isEmpty hfull hw, Bool.not_eq_true] at hwhere
    exact hwhere

theorem compile_prune_patchy :
    (∀ x ∈ Request.patchy.filter.rules, ¬ x.IsIncomplete → x.IsFilledIn) ∧
    ∃ sql text, standard.compile .patchy = .ok sql ∧ standard.compileFilter .patchy = .ok text ∧
      standard.compile Request.patchy.prune = .ok sql ∧
      standard.compileFilter Request.patchy.prune = .ok text ∧
      text = Request.patchy.prune.filter.layout (Rule.sql Request.patchy.scope {}) ∧ text ≠ "" ∧
      Sql.HasWhereIff sql True := by
  have hfilled : ∀ x ∈ Request.patchy.filter.rules, ¬ x.IsIncomplete → x.IsFilledIn := by
    simp only [Request.patchy, Group.rules, Node.rulesOf, Node.rules, List.append_nil,
      List.cons_append, List.nil_append, List.forall_mem_cons]
    refine ⟨fun _ => .inr (.inr ⟨_, rfl, by simp⟩), fun _ => .inl rfl, fun h => absurd (.inl rfl) h,
      fun _ => .inl rfl, fun _ => .inl rfl, fun _ => .inr (.inr ⟨_, rfl, by simp⟩),
      List.forall_mem_nil _⟩
  have hleft : Request.patchy.prune.filter.isEmpty = false := by decide +kernel
  obtain ⟨sql, hsql⟩ : ∃ sql, standard.compile .patchy = .ok sql := ⟨_, rfl⟩
  obtain ⟨text, htext⟩ : ∃ text, standard.compileFilter .patchy = .ok text := ⟨_, rfl⟩
  obtain ⟨-, -, hsame, hlayout, hwhere⟩ := compile_prune standard .patchy
  have hpruned := (hsame hfilled).1.trans hsql
  have hprunedFilter := (hsame hfilled).2.trans htext
  obtain ⟨-, hplaces, hempty⟩ := hlayout _ hprunedFilter
  have hcondition := hwhere _ hpruned
  rw [eq_true hleft] at hcondition
  refine ⟨hfilled, sql, text, hsql, htext, hpruned, hprunedFilter, hplaces, fun h => ?_, hcondition⟩
  rw [hempty.mp h] at hleft
  cases hleft

end Compiler

end FilterSelect
