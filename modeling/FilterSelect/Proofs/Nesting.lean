import FilterSelect.Proofs.Grammar
import FilterSelect.Proofs.RoundTrip

/-!
# Groups within groups

A group is read in a filter as it is read alone. It stands at a place: there are groups around it,
and items before and behind it in each. When all before it can be read, what is wrong with the
group is wrong with the filter, and else the filter has the group at the place. So mistakes in a
group are found at every depth. What makes an object a group is that its rules are an array: an
object with other rules is read as a rule, and then its rules do not count.

* `Layer`, `enclosed`: the groups around a place, and the filter with a group at the place.
* `exists_around_eq_of_holds`: each object among the rules of a group is at such a place.
* `NestsWithin`: how deep the groups of a document are nested.
* `ReadsUpTo`: all before the place can be read.
* `Group.ofMembers_enclosed_of_error`, `Group.replaced_enclosed`: how a filter depends on the group
  at a place.
* `Group.readsAlike`: a group in a filter and alone.
-/

namespace FilterSelect

open Json (Members)

/-! ## Places -/

namespace Json.Members

/-- A group around a place: its members but the rules, and the rules before and behind the place. -/
structure Layer where
  members : Members
  before : List Json
  after : List Json

/-- The group with a group at the place. -/
def Layer.around (l : Layer) (q : Members) : Members :=
  l.members.insert "rules" (.array (l.before ++ .object q :: l.after))

/-- The filter with a group at the place within the layers, the outermost first. -/
def enclosed (layers : List Layer) (q : Members) : Members := layers.foldr Layer.around q

/-- The document of a request with the given filter. -/
def withFilter (request filter : Members) : Json :=
  .object (request.insert "query" (.object filter))

/-- The document of a group with a single item. -/
def single (combinator : String) (item : Json) : Json :=
  .ofMembers [("combinator", .string combinator), ("rules", .array [item])]

/-- The members of a group without rules. -/
def emptyGroup : Members := [("rules", .array [])]

/-- Groups are nested at most so deep, and the object counts as one. -/
inductive NestsWithin : Nat → Members → Prop
  | intro {levels : Nat} {members : Members}
      (groups : ∀ child, members.Holds child → child.HasRules → NestsWithin levels child) :
      NestsWithin (levels + 1) members

/-- All before the place can be read. `outer` levels of groups may be nested in the filter, `inner`
levels at the place, and `path` has the positions that lead to it. -/
inductive ReadsUpTo : (outer inner : Nat) → List Layer → (path : List Nat) → Prop
  | here {levels : Nat} : ReadsUpTo levels levels [] []
  | within {outer inner : Nat} {l : Layer} {layers : List Layer} {path : List Nat} {c : Combinator}
      {nodes : List Node}
      (combinator :
        l.members.choice "combinator" .and Combinator.ofName? .invalidCombinator = .ok c)
      (before : Group.nodesOfItems (Group.ofMembers outer) l.before = .ok nodes)
      (rest : ReadsUpTo outer inner layers path) :
      ReadsUpTo (outer + 1) inner (l :: layers) (nodes.length :: path)

/-- An object among the rules of a group is at a place of it. -/
theorem exists_around_eq_of_holds {members q : Members} (h : members.IsOrdered)
    (hq : members.Holds q) : ∃ before after, Layer.around ⟨members, before, after⟩ q = members := by
  obtain ⟨items, hget, hmem⟩ := hq
  obtain ⟨before, after, rfl⟩ := List.append_of_mem hmem
  exact ⟨before, after, insert_eq_self h hget⟩

theorem ReadsUpTo.inner_le_outer {outer inner : Nat} {layers : List Layer} {path : List Nat}
    (h : ReadsUpTo outer inner layers path) : inner ≤ outer := by
  induction h with
  | here => exact le_rfl
  | within _ _ _ ih => omega

end Json.Members

open Json.Members

/-! ## Items -/

namespace Group

section Items

variable {nested nested' : Members → Except RequestError Group}

theorem nodesOfItems_append (items rest : List Json) :
    nodesOfItems nested (items ++ rest) =
      nodesOfItems nested items >>= fun nodes => (nodes ++ ·) <$> nodesOfItems nested rest := by
  induction items with
  | nil => cases h : nodesOfItems nested rest <;> simp [nodesOfItems, h, bind, Except.bind]
  | cons item items ih =>
    cases item with
    | object child =>
      rw [List.cons_append, nodesOfItems_object, nodesOfItems_object, ih, bind_assoc]
      refine bind_congr fun node => ?_
      cases nodesOfItems nested items with
      | error e => rfl
      | ok nodes => cases nodesOfItems nested rest <;> rfl
    | _ => exact ih

/-- Only the groups among the items are read as such. -/
theorem nodesOfItems_congr {items : List Json}
    (h : ∀ child : Members, .object child ∈ items → child.HasRules →
      nested child = nested' child) :
    nodesOfItems nested items = nodesOfItems nested' items := by
  induction items with
  | nil => rfl
  | cons item items ih =>
    have ih := ih fun child hchild => h child (List.mem_cons_of_mem item hchild)
    cases item with
    | object child =>
      rw [nodesOfItems_object, nodesOfItems_object, ih]
      by_cases hrules : Members.HasRules child
      · rw [h child List.mem_cons_self hrules]
      · rw [if_neg (mt isGroup_eq_true_iff.mp hrules), if_neg (mt isGroup_eq_true_iff.mp hrules)]
    | _ => exact ih

end Items

theorem holds_of_mem_items {members child : Members} {items : List Json}
    (h : members.items "rules" = .ok items) (hchild : .object child ∈ items) :
    members.Holds child := by
  unfold Members.items at h
  split at h
  · cases h
    cases hchild
  · cases h
    cases hchild
  · rename_i hget
    cases h
    exact ⟨_, hget, hchild⟩
  · cases h

/-- Levels that are not needed do not count. -/
theorem ofMembers_eq_of_nestsWithin {levels : Nat} {q : Members} (h : q.NestsWithin levels)
    {more : Nat} (hle : levels ≤ more) : ofMembers more q = ofMembers levels q := by
  induction h generalizing more with
  | @intro levels members _ ih =>
    obtain ⟨more, rfl⟩ : ∃ n, more = n + 1 := ⟨more - 1, by omega⟩
    rw [ofMembers, ofMembers]
    refine bind_congr fun combinator => ?_
    cases hitems : members.items "rules" with
    | error e => rfl
    | ok items =>
      have hnodes : nodesOfItems (ofMembers more) items = nodesOfItems (ofMembers levels) items :=
        nodesOfItems_congr fun child hchild hrules =>
          ih child (holds_of_mem_items hitems hchild) hrules (by omega)
      show (nodesOfItems (ofMembers more) items >>= _) = nodesOfItems (ofMembers levels) items >>= _
      rw [hnodes]

/-! ## A group around a place -/

variable {outer inner : Nat} {layers : List Layer} {path : List Nat} {q : Members}

theorem get?_around (l : Layer) (q : Members) (key : String) : (l.around q).get? key =
    if key = "rules" then some (.array (l.before ++ .object q :: l.after))
    else l.members.get? key :=
  get?_insert _ _ _ _

theorem hasRules_around (l : Layer) (q : Members) : (l.around q).HasRules :=
  ⟨_, get?_around l q "rules"⟩

theorem choice_around (l : Layer) (q : Members) :
    (l.around q).choice "combinator" .and Combinator.ofName? .invalidCombinator =
      l.members.choice "combinator" .and Combinator.ofName? .invalidCombinator := by
  rw [Members.choice, Members.choice, get?_around, if_neg (by decide)]

theorem items_around (l : Layer) (q : Members) :
    (l.around q).items "rules" = .ok (l.before ++ .object q :: l.after) := by
  rw [Members.items, get?_around, if_pos rfl]

/-- What a group reads from its rules, when all before the place can be read. -/
theorem ofMembers_around {l : Layer} {c : Combinator} {nodes : List Node}
    (hcombinator : l.members.choice "combinator" .and Combinator.ofName? .invalidCombinator = .ok c)
    (hbefore : nodesOfItems (ofMembers outer) l.before = .ok nodes) (hrules : q.HasRules) :
    ofMembers (outer + 1) (l.around q) = ofMembers outer q >>= fun g =>
      (fun rest => ⟨c, nodes ++ g.toNode :: rest⟩) <$> nodesOfItems (ofMembers outer) l.after := by
  have hnodes : nodesOfItems (ofMembers outer) (l.before ++ .object q :: l.after) =
      ofMembers outer q >>= fun g =>
        (fun rest => nodes ++ g.toNode :: rest) <$> nodesOfItems (ofMembers outer) l.after := by
    rw [nodesOfItems_append, hbefore, nodesOfItems_object,
      if_pos (isGroup_eq_true_iff.mpr hrules)]
    cases ofMembers outer q with
    | error e => rfl
    | ok g => cases nodesOfItems (ofMembers outer) l.after <;> rfl
  rw [ofMembers, choice_around, hcombinator, items_around]
  show (nodesOfItems (ofMembers outer) _ >>= _) = _
  rw [hnodes]
  cases ofMembers outer q with
  | error e => rfl
  | ok g => cases nodesOfItems (ofMembers outer) l.after <;> rfl

theorem hasRules_enclosed (layers : List Layer) (hrules : q.HasRules) :
    (enclosed layers q).HasRules := by
  cases layers with
  | nil => exact hrules
  | cons l layers => exact hasRules_around l _

/-- A mistake of the group is a mistake of the filter. -/
theorem ofMembers_enclosed_of_error (h : ReadsUpTo outer inner layers path) (hrules : q.HasRules)
    {e : RequestError} (he : ofMembers inner q = .error e) :
    ofMembers outer (enclosed layers q) = .error e := by
  induction h with
  | here => exact he
  | @within _ _ l layers _ _ _ hcombinator hbefore _ ih =>
    have houter : enclosed (l :: layers) q = l.around (enclosed layers q) := rfl
    rw [houter, ofMembers_around hcombinator hbefore (hasRules_enclosed layers hrules), ih he]
    rfl

/-! ## Replacing a group -/

/-- Two readings of a filter: both have the same mistake, or the second filter is the first one
with the group `g` at the path. -/
inductive Replaced (g : Group) (path : List Nat) :
    Except RequestError Group → Except RequestError Group → Prop
  | error (e : RequestError) : Replaced g path (.error e) (.error e)
  | ok {r r' : Group} (h : r.modifyAt? (fun _ => g) path = some r') :
      Replaced g path (.ok r) (.ok r')

theorem modifyAt?_append {change : Group → Group} {r r' : Group}
    (h : r.modifyAt? change path = some r') (c : Combinator) (nodes rest : List Node) :
    modifyAt? change (nodes.length :: path) ⟨c, nodes ++ r.toNode :: rest⟩ =
      some ⟨c, nodes ++ r'.toNode :: rest⟩ := by
  have hget : (nodes ++ r.toNode :: rest)[nodes.length]? =
      some (.group r.combinator r.members) := by
    rw [List.getElem?_append_right le_rfl, Nat.sub_self]
    rfl
  rw [modifyAt?]
  simp only [hget, h, Option.map_some]
  rw [List.set_append_right _ _ le_rfl, Nat.sub_self, List.set_cons_zero]

/-- Two groups without a mistake make no other difference to the filter. -/
theorem replaced_enclosed (h : ReadsUpTo outer inner layers path) {p : Members}
    (hp : p.HasRules) (hq : q.HasRules) {g₀ g : Group} (h₀ : ofMembers inner p = .ok g₀)
    (hg : ofMembers inner q = .ok g) :
    Replaced g path (ofMembers outer (enclosed layers p))
      (ofMembers outer (enclosed layers q)) := by
  induction h with
  | here =>
    rw [enclosed, enclosed, List.foldr_nil, List.foldr_nil, h₀, hg]
    exact .ok rfl
  | @within outer _ l layers _ c nodes hcombinator hbefore _ ih =>
    have houter (q : Members) : enclosed (l :: layers) q = l.around (enclosed layers q) := rfl
    have ih := ih h₀ hg
    rw [houter, houter, ofMembers_around hcombinator hbefore (hasRules_enclosed layers hp),
      ofMembers_around hcombinator hbefore (hasRules_enclosed layers hq)]
    generalize ofMembers outer (enclosed layers p) = x at ih ⊢
    generalize ofMembers outer (enclosed layers q) = y at ih ⊢
    cases ih with
    | error e => exact .error e
    | ok h =>
      cases nodesOfItems (ofMembers outer) l.after with
      | error e => exact .error e
      | ok rest => exact .ok (modifyAt?_append h c nodes rest)

end Group

/-! ## Groups in a request -/

namespace Request

/-- A request of a table is read from its filter, and then from its joins and its columns. -/
theorem exists_ofJson_withFilter {request : Members} {table : String}
    (htable : tableOfMembers request = .ok table) :
    ∃ rest : Except RequestError (List Join × List SelectedColumn), ∀ filter : Members,
      Request.ofJson (request.withFilter filter) = Group.ofMembers 32 filter >>= fun g =>
        (fun x => ⟨table, g, x.1, x.2⟩) <$> rest := by
  refine ⟨do
    let joins ← (← request.items "joins").mapM Join.ofJson
    let columns ← (← request.items "selectedColumns").mapM SelectedColumn.ofJson
    .ok (joins, columns), fun filter => ?_⟩
  have hquery : filterOfMembers (request.insert "query" (.object filter)) =
      Group.ofMembers 32 filter := by
    rw [filterOfMembers, get?_insert, if_pos rfl]
    rfl
  have hstring : (request.insert "query" (.object filter)).string "table" =
      request.string "table" := by
    rw [Members.string, Members.string, get?_insert, if_neg (by decide : "table" ≠ "query")]
  have hitems (key : String) (hkey : key ≠ "query") :
      (request.insert "query" (.object filter)).items key = request.items key := by
    rw [Members.items, Members.items, get?_insert, if_neg hkey]
  have htable : tableOfMembers (request.insert "query" (.object filter)) = .ok table := by
    rw [← htable, tableOfMembers, tableOfMembers, hstring]
  show (tableOfMembers (request.insert "query" (.object filter)) >>= _) = _
  rw [htable, hquery, hitems "joins" (by decide), hitems "selectedColumns" (by decide)]
  show (Group.ofMembers 32 filter >>= _) = Group.ofMembers 32 filter >>= _
  refine bind_congr fun g => ?_
  -- Neither the joins nor the columns depend on the filter, so each step is the same for both.
  cases request.items "joins" with
  | error e => rfl
  | ok joins =>
    show (joins.mapM Join.ofJson >>= _) = _ <$> (joins.mapM Join.ofJson >>= _)
    rw [map_bind]
    refine bind_congr fun joins => ?_
    cases request.items "selectedColumns" with
    | error e => rfl
    | ok columns =>
      show (columns.mapM SelectedColumn.ofJson >>= _) =
        _ <$> (columns.mapM SelectedColumn.ofJson >>= _)
      rw [map_bind]
      exact bind_congr fun columns => rfl

end Request

/-! ## A group in a filter and alone -/

/-- The group is read at a path within the layers of a request's filter as it is alone. Its mistake is
that of the request. Without one, the request is read as it is with an empty group at the place, and
it has the group there instead. -/
structure Json.Members.ReadsIn (q request : Members) (layers : List Layer) (path : List Nat) :
    Prop where
  error_iff : ∀ e, Request.ofJson (request.withFilter (enclosed layers q)) = .error e ↔
    Group.ofJson (.object q) = .error e ∨ (∃ g, Group.ofJson (.object q) = .ok g) ∧
      Request.ofJson (request.withFilter (enclosed layers emptyGroup)) = .error e
  ok_iff : ∀ r, Request.ofJson (request.withFilter (enclosed layers q)) = .ok r ↔
    ∃ g r₀ filter, Group.ofJson (.object q) = .ok g ∧
      Request.ofJson (request.withFilter (enclosed layers emptyGroup)) = .ok r₀ ∧
      r₀.filter.modifyAt? (fun _ => g) path = some filter ∧ r = { r₀ with filter := filter }

namespace Group

variable {q : Members}

theorem toNode_inj {g g' : Group} : g.toNode = g'.toNode ↔ g = g' := by
  cases g
  cases g'
  simp [toNode]

section Single

variable {name : String} {c : Combinator} (hname : Combinator.ofName? name = some c)
include hname

theorem choice_ofList : Members.choice (.ofList [("combinator", .string name)]) "combinator" .and
    Combinator.ofName? .invalidCombinator = .ok c := by
  have hget : Members.get? (.ofList [("combinator", .string name)]) "combinator" =
      some (.string name) := by
    rw [get?_ofList]
    rfl
  simp only [Members.choice, hget, hname]

/-- The only group of a filter is read as it is alone. -/
theorem ofJson_single (hrules : q.HasRules) (hnests : q.NestsWithin 31) :
    Group.ofJson (single name (.object q)) =
      (fun g => ⟨c, [g.toNode]⟩) <$> Group.ofJson (.object q) := by
  have halone : Group.ofJson (.object q) = ofMembers 31 q :=
    ofMembers_eq_of_nestsWithin hnests (by decide)
  have hbefore : nodesOfItems (ofMembers 31) [] = .ok [] := rfl
  have hall := ofMembers_around (l := ⟨_, [], []⟩) (choice_ofList hname) hbefore hrules
  rw [halone]
  refine hall.trans ?_
  cases ofMembers 31 q <;> rfl

/-- An object whose rules are no array is read as a rule. -/
theorem ofJson_single_rule (hrules : ¬ q.HasRules) :
    Group.ofJson (single name (.object q)) = (fun x => ⟨c, [.rule x]⟩) <$> Rule.ofMembers q := by
  show ofMembers 32 (Layer.around ⟨.ofList [("combinator", .string name)], [], []⟩ q) = _
  rw [ofMembers, choice_around, choice_ofList hname, items_around]
  show (nodesOfItems (ofMembers 31) [.object q] >>= _) = _
  rw [nodesOfItems_object, if_neg (mt isGroup_eq_true_iff.mp hrules)]
  cases Rule.ofMembers q <;> rfl

end Single

/-- A group that is not nested too deep for its place is read there as it is alone. -/
theorem readsIn {request : Members} {table : String} {levels : Nat} {layers : List Layer}
    {path : List Nat} (hrules : q.HasRules) (htable : Request.tableOfMembers request = .ok table)
    (hread : ReadsUpTo 32 levels layers path) (hnests : q.NestsWithin levels) :
    q.ReadsIn request layers path := by
  have halone : Group.ofJson (.object q) = ofMembers levels q :=
    ofMembers_eq_of_nestsWithin hnests hread.inner_le_outer
  obtain ⟨rest, hrest⟩ := Request.exists_ofJson_withFilter htable
  cases hq : ofMembers levels q with
  | error e =>
    have houter := ofMembers_enclosed_of_error hread hrules hq
    constructor <;> simp [hrest, halone, hq, houter, bind, Except.bind]
  | ok g =>
    obtain ⟨g₀, h₀⟩ : ∃ g₀, ofMembers levels emptyGroup = .ok g₀ := by
      cases hnests with | intro => exact ⟨_, rfl⟩
    have hreplaced := replaced_enclosed hread ⟨[], rfl⟩ hrules h₀ hq
    constructor
    all_goals
      rw [hrest, hrest, halone, hq]
      generalize ofMembers 32 (enclosed layers emptyGroup) = x at hreplaced ⊢
      generalize ofMembers 32 (enclosed layers q) = y at hreplaced ⊢
      cases hreplaced with
      | error e => simp [bind, Except.bind]
      | ok h => cases rest <;> simp [h, bind, Except.bind, Functor.map, Except.map, eq_comm]

/-- A group with an array of rules gives the same group or the same mistake as the only item of a
filter, and at any place of the filter of a request, as it gives alone, if all before it can be read
and it is not nested too deep for the place. -/
theorem readsAlike (hrules : q.HasRules) :
    (∀ name c, Combinator.ofName? name = some c → q.NestsWithin 31 →
      (∀ g : Group, Group.ofJson (single name (.object q)) = .ok ⟨c, [g.toNode]⟩ ↔
        Group.ofJson (.object q) = .ok g) ∧
      ∀ e, Group.ofJson (single name (.object q)) = .error e ↔
        Group.ofJson (.object q) = .error e) ∧
    ∀ request table levels layers path, Request.tableOfMembers request = .ok table →
      ReadsUpTo 32 levels layers path → q.NestsWithin levels → q.ReadsIn request layers path := by
  constructor
  · intro name c hname hnests
    rw [ofJson_single hname hrules hnests]
    cases Group.ofJson (.object q) with
    | error e => simp [Functor.map, Except.map]
    | ok g => simp [Functor.map, Except.map, toNode_inj]
  · intro request table levels layers path htable hread hnests
    exact readsIn hrules htable hread hnests

/-- A group with a combinator that there is not. -/
def misnamed : Members := [("combinator", .string "xor"), ("rules", .array [])]

/-- A group around a place, with items before it that can be read. -/
def outerLayer : Layer :=
  ⟨[("combinator", .string "or")], [.bool true, .object [("field", .string "a")]], []⟩

/-- A group around a place, with a mistake behind it. -/
def innerLayer : Layer := ⟨[], [], [.object [("value", .object [])]]⟩

theorem readsAlike_misnamed : misnamed.HasRules ∧
    Group.ofJson (single "or" (.object misnamed)) = .error (.invalidCombinator "xor") ∧
    Request.ofJson (withFilter [("table", .string "t")]
      (enclosed [outerLayer, innerLayer] misnamed)) = .error (.invalidCombinator "xor") := by
  have hrules : misnamed.HasRules := ⟨[], rfl⟩
  have hname : Combinator.ofName? "or" = some .or := by decide +kernel
  have hnests (levels : Nat) : misnamed.NestsWithin (levels + 1) := by
    refine .intro fun child ⟨items, hget, hmem⟩ _ => ?_
    cases hget
    cases hmem
  have halone : Group.ofJson (.object misnamed) = .error (.invalidCombinator "xor") :=
    fault?_eq_some_iff.mp (by decide +kernel)
  have houter : nodesOfItems (ofMembers 31) outerLayer.before = .ok [.rule ⟨"a", none, none⟩] := rfl
  have hinner : nodesOfItems (ofMembers 30) innerLayer.before = .ok [] := rfl
  have hread : ReadsUpTo 32 30 [outerLayer, innerLayer] [1, 0] :=
    .within (choice_ofList hname) houter (.within rfl hinner .here)
  obtain ⟨hsingle, hplaces⟩ := readsAlike hrules
  refine ⟨hrules, ((hsingle "or" .or hname (hnests 30)).2 _).mpr halone, ?_⟩
  exact ((hplaces _ "t" 30 _ _ rfl hread (hnests 29)).error_iff _).mpr (.inl halone)

/-- A group with rules that are no array is a mistake alone. Within a filter it is a rule, and one
without a field, which asks for nothing. -/
theorem ofJson_single_mistyped : ∃ (q : Members) (rules : Json),
    q.get? "rules" = some rules ∧ rules ≠ .null ∧ q.NestsWithin 31 ∧
    Combinator.ofName? "and" = some .and ∧ Group.ofJson (.object q) = .error .expectedArray ∧
    Group.ofJson (single "and" (.object q)) = .ok ⟨.and, [.rule ⟨"", none, none⟩]⟩ := by
  have hrules : ¬ Members.HasRules [("rules", .object [])] := by decide +kernel
  have hname : Combinator.ofName? "and" = some .and := by decide +kernel
  refine ⟨[("rules", .object [])], .object [], rfl, nofun, ?_, hname, rfl, ?_⟩
  · exact .intro fun child ⟨items, hget, _⟩ _ => absurd ⟨items, hget⟩ hrules
  · rw [ofJson_single_rule hname hrules]
    rfl

end Group

end FilterSelect
