import FilterSelect.Proofs.Filter.Tree
import FilterSelect.Proofs.Json.Members
import FilterSelect.Proofs.Number.Binary64
import FilterSelect.Proofs.Steps
import FilterSelect.Request.OfJson

/-!
# Requests as documents

A request can be written as a document, and reading the document gives the request back: nothing of
it is lost, neither the order of its members nor what is empty or missing in it. What a document
cannot express is just what reading never returns: a request without a table, groups that are nested
too deep, and values that are lists within lists or numbers that are not finite.

* `Request.toJson`: the document of a request.
* `Request.IsExpressible`: the requests that documents express.
* `Request.ofJson_of_isExpressible`: reading the document of a request gives the request.
* `Request.isExpressible_of_ofJson`: what is read is expressible.
* `Request.toJson_roundTrip`: which requests are read, and that reading them again changes nothing.
-/

namespace FilterSelect

open Json (Members)

/-! ## Documents -/

namespace Operator

/-- The name with a meaning that an operator has; `free` when it has none. -/
def nameOr (free : String) (op : Operator) : String :=
  ((names.find? fun entry => entry.2 = op).map Prod.fst).getD free

/-- The name is not empty and has no meaning. -/
def IsFree (name : String) : Prop := name ≠ "" ∧ name ∉ names.map Prod.fst

end Operator

/-- The members of the document of a rule. `free` names an operator without a meaning. -/
def Rule.document (free : String) (r : Rule) : Members :=
  .ofList <| [("field", .string r.field)] ++
    (r.operator.map fun op => ("operator", .string (op.nameOr free))).toList ++
    (r.value.map fun v => ("value", v.toJson)).toList

/-- The members of the document of a group. -/
def Group.document (combinator : Combinator) (items : List Json) : Members :=
  .ofList [("combinator", .string combinator.name), ("rules", .array items)]

namespace Node

mutual

/-- The document of a member. The rule at position `i` of the filter has the name `free i` for an
operator without a meaning; `k` is the position of the first rule of the member. -/
def toJson (free : Nat → String) (k : Nat) : Node → Json
  | .rule r => .object (r.document (free k))
  | .group combinator members => .object (Group.document combinator (toJsons free k members))

/-- The documents of the members of a group. -/
def toJsons (free : Nat → String) (k : Nat) : List Node → List Json
  | [] => []
  | n :: ns => n.toJson free k :: toJsons free (k + n.rules.length) ns

end

end Node

/-- The document of a join. -/
def Join.toJson (j : Join) : Json := .ofMembers [
  ("type", .string j.type.keyword), ("targetTable", .string j.targetTable),
  ("sourceColumn", .string j.sourceColumn), ("targetColumn", .string j.targetColumn)]

/-- The document of a selected column. -/
def SelectedColumn.toJson (c : SelectedColumn) : Json := .ofMembers [
  ("table", .string c.table), ("column", .string c.column), ("alias", .string c.output)]

/-- The document of a request. -/
def Request.toJson (free : Nat → String) (r : Request) : Json := .ofMembers [
  ("table", .string r.table), ("query", r.filter.toNode.toJson free 0),
  ("joins", .array (r.joins.map Join.toJson)),
  ("selectedColumns", .array (r.columns.map SelectedColumn.toJson))]

/-! ## What documents express -/

namespace Value

/-- A scalar, and finite if it is a number. -/
def IsFiniteScalar : Value → Prop
  | .float x => x.isFinite = true
  | .list _ => False
  | _ => True

/-- A scalar or a list of scalars, with finite numbers. -/
def IsExpressible : Value → Prop
  | .list members => ∀ v ∈ members, v.IsFiniteScalar
  | v => v.IsFiniteScalar

end Value

/-- A document can express the value of the rule, if it has one. -/
def Rule.IsExpressible (r : Rule) : Prop := ∀ v, r.value = some v → v.IsExpressible

/-- The request has a table, its groups are nested at most 32 deep, and each value of its rules is a
scalar or a list of scalars, with finite numbers. -/
structure Request.IsExpressible (r : Request) : Prop where
  table : r.table ≠ ""
  depth : r.filter.depth ≤ 32
  rules : ∀ x ∈ r.filter.rules, x.IsExpressible

/-- The number is no infinity and no NaN. -/
def Json.Number.IsFinite : Json.Number → Prop
  | .float x => x.isFinite = true
  | _ => True

/-- All numbers of the document are finite. -/
inductive Json.IsFinite : Json → Prop
  | null : IsFinite .null
  | bool (b : Bool) : IsFinite (.bool b)
  | number {n : Json.Number} (h : n.IsFinite) : IsFinite (.number n)
  | string (s : String) : IsFinite (.string s)
  | array {items : List Json} (h : ∀ item ∈ items, IsFinite item) : IsFinite (.array items)
  | object {members : Members} (h : ∀ member ∈ members, IsFinite member.2) :
      IsFinite (.object members)

/-! ## Values -/

namespace Value

theorem ofScalar?_toJson {v : Value} (h : v.IsFiniteScalar) : ofScalar? v.toJson = some v := by
  cases v with
  | float x =>
    have hx : x.isFinite = true := h
    rw [toJson, if_pos hx]
    rfl
  | list => exact h.elim
  | _ => rfl

theorem membersToJson_eq_map (vs : List Value) : membersToJson vs = vs.map toJson := by
  induction vs with
  | nil => rfl
  | cons v vs ih => rw [membersToJson, ih, List.map_cons]

theorem ofJson?_toJson {v : Value} (h : v.IsExpressible) : ofJson? v.toJson = some v := by
  cases v with
  | list members =>
    have hmembers : (members.map toJson).mapM ofScalar? = some members :=
      mapM_map_of_forall fun v hv => ofScalar?_toJson (h v hv)
    rw [toJson, ofJson?, membersToJson_eq_map, hmembers]
    rfl
  | float x =>
    have hx : x.isFinite = true := h
    rw [toJson, if_pos hx]
    rfl
  | _ => rfl

theorem isFiniteScalar_ofNumber {n : Json.Number} (h : n.IsFinite) :
    (ofNumber n).IsFiniteScalar := by
  cases n with
  | unsigned n =>
    rw [ofNumber]
    split
    · trivial
    · exact Binary64.isFinite_ofNat n.toNat_lt
  | signed n => trivial
  | float x => exact h

theorem isFiniteScalar_of_ofScalar? {json : Json} {v : Value} (hjson : json.IsFinite)
    (h : ofScalar? json = some v) : v.IsFiniteScalar := by
  cases hjson with
  | number hn =>
    cases h
    exact isFiniteScalar_ofNumber hn
  | array => cases h
  | object => cases h
  | _ =>
    cases h
    trivial

/-- A scalar is no list, so it is expressible when it is finite. -/
theorem IsFiniteScalar.isExpressible {v : Value} (h : v.IsFiniteScalar) : v.IsExpressible := by
  cases v with
  | list => exact h.elim
  | _ => exact h

theorem isExpressible_of_ofJson? {json : Json} {v : Value} (hjson : json.IsFinite)
    (h : ofJson? json = some v) : v.IsExpressible := by
  cases json with
  | array items =>
    cases hjson with | array hitems
    obtain ⟨vs, hvs, rfl⟩ := Option.map_eq_some_iff.mp h
    intro v hv
    obtain ⟨item, hitem, hread⟩ := exists_of_mem_forall₂ (mapM_eq_some_iff.mp hvs) hv
    exact isFiniteScalar_of_ofScalar? (hitems item hitem) hread
  | _ => exact (isFiniteScalar_of_ofScalar? hjson h).isExpressible

end Value

mutual

theorem Value.isFinite_toJson (v : Value) : v.toJson.IsFinite := by
  cases v with
  | null => exact .null
  | bool b => exact .bool b
  | int n => exact .number trivial
  | float x =>
    rw [toJson]
    split
    · rename_i hx
      exact .number hx
    · exact .null
  | text s => exact .string s
  | list members =>
    rw [toJson]
    exact .array (Value.isFinite_membersToJson members)

theorem Value.isFinite_membersToJson (vs : List Value) :
    ∀ json ∈ membersToJson vs, json.IsFinite := by
  cases vs with
  | nil => nofun
  | cons v vs =>
    rw [membersToJson, List.forall_mem_cons]
    exact ⟨Value.isFinite_toJson v, Value.isFinite_membersToJson vs⟩

end

theorem Json.isFinite_ofMembers {members : List (String × Json)}
    (h : ∀ member ∈ members, member.2.IsFinite) : (Json.ofMembers members).IsFinite :=
  .object fun member hmember => h member (Members.mem_of_mem_ofList hmember)

theorem Json.isFinite_ofStrings (members : List (String × String)) :
    (Json.ofMembers (members.map fun (key, s) => (key, .string s))).IsFinite := by
  refine isFinite_ofMembers fun member hmember => ?_
  obtain ⟨⟨key, s⟩, -, rfl⟩ := List.mem_map.mp hmember
  exact .string s

/-! ## Rules -/

theorem Operator.ofName?_nameOr {free : String} (h : IsFree free) (op : Operator) :
    ofName? (op.nameOr free) = some op := by
  cases op with
  | other =>
    have hlookup : names.lookup free = none := by
      rw [List.lookup_eq_none_iff]
      intro entry hentry
      simpa using fun heq : free = entry.1 => h.2 (heq ▸ List.mem_map_of_mem hentry)
    have hname : other.nameOr free = free := rfl
    rw [hname, ofName?, if_neg h.1, hlookup]
    rfl
  | _ => rfl

namespace Rule

theorem get?_document (free : String) (r : Rule) :
    (r.document free).get? "field" = some (.string r.field) ∧
    (r.document free).get? "operator" = r.operator.map (fun op => .string (op.nameOr free)) ∧
    (r.document free).get? "value" = r.value.map Value.toJson ∧
    (r.document free).get? "rules" = none := by
  simp only [document, Members.get?_ofList]
  cases r.operator <;> cases r.value <;> simp [List.lookup_cons]

theorem isGroup_document (free : String) (r : Rule) : Group.isGroup (r.document free) = false := by
  obtain ⟨-, -, -, hrules⟩ := r.get?_document free
  rw [Group.isGroup, hrules]

theorem ofMembers_document {free : String} (hfree : Operator.IsFree free) {r : Rule}
    (h : r.IsExpressible) : Rule.ofMembers (r.document free) = .ok r := by
  obtain ⟨hfield, hoperator, hvalue, -⟩ := r.get?_document free
  have hfield : (r.document free).string "field" = r.field := by
    rw [Members.string, hfield]
  have hoperator : operatorOfMembers (r.document free) = r.operator := by
    rw [operatorOfMembers, hoperator]
    cases r.operator with
    | none => rfl
    | some op => exact Operator.ofName?_nameOr hfree op
  have hvalue : valueOfMembers (r.document free) = .ok r.value := by
    rw [valueOfMembers, hvalue]
    cases hv : r.value with
    | none => rfl
    | some v => simp only [Option.map_some, Value.ofJson?_toJson (h v hv)]
  rw [ofMembers, hfield, hoperator, hvalue]
  rfl

theorem isExpressible_of_ofMembers {members : Members} {r : Rule}
    (hfinite : ∀ member ∈ members, member.2.IsFinite) (h : Rule.ofMembers members = .ok r) :
    r.IsExpressible := by
  obtain ⟨value, hvalue, h⟩ := bind_eq_ok_iff.mp h
  cases h
  rintro v rfl
  unfold valueOfMembers at hvalue
  split at hvalue
  · cases hvalue
  · rename_i json hget
    split at hvalue
    · rename_i hread
      cases hvalue
      exact Value.isExpressible_of_ofJson? (hfinite _ (Members.mem_of_get? hget)) hread
    · cases hvalue

theorem isFinite_document (free : String) (r : Rule) :
    (Json.object (r.document free)).IsFinite := by
  refine Json.isFinite_ofMembers fun member hmember => ?_
  simp only [List.mem_append, List.mem_singleton, Option.mem_toList, Option.map_eq_some_iff]
    at hmember
  rcases hmember with (rfl | ⟨op, -, rfl⟩) | ⟨v, -, rfl⟩
  · exact .string _
  · exact .string _
  · exact v.isFinite_toJson

end Rule

/-! ## Groups -/

namespace Group

variable {free : Nat → String}

theorem get?_document_combinator (combinator : Combinator) (items : List Json) :
    (document combinator items).get? "combinator" = some (.string combinator.name) := by
  rw [document, Members.get?_ofList]
  rfl

theorem get?_document_rules (combinator : Combinator) (items : List Json) :
    (document combinator items).get? "rules" = some (.array items) := by
  rw [document, Members.get?_ofList]
  rfl

theorem isGroup_document (combinator : Combinator) (items : List Json) :
    isGroup (document combinator items) = true := by
  rw [isGroup, get?_document_rules]

theorem ofMembers_document (levels : Nat) (combinator : Combinator) (items : List Json) :
    ofMembers (levels + 1) (document combinator items) =
      Group.mk combinator <$> nodesOfItems (ofMembers levels) items := by
  rw [ofMembers, Members.choice, get?_document_combinator, Members.items, get?_document_rules]
  simp only [Combinator.ofName?_name]
  cases h : nodesOfItems (ofMembers levels) items <;>
    simp [h, bind, Except.bind, Functor.map, Except.map]

theorem nodesOfItems_object (nested : Members → Except RequestError Group) (child : Members)
    (items : List Json) : nodesOfItems nested (.object child :: items) =
      (if isGroup child then toNode <$> nested child else Node.rule <$> Rule.ofMembers child) >>=
        fun n => (n :: ·) <$> nodesOfItems nested items := by
  rw [nodesOfItems]
  split <;> rfl

/-- Items are read one by one, if the document of each member is. -/
theorem nodesOfItems_toJsons_of_forall {nested : Members → Except RequestError Group}
    {ns : List Node} (h : ∀ n ∈ ns, ∀ k items, nodesOfItems nested (n.toJson free k :: items) =
      (n :: ·) <$> nodesOfItems nested items) (k : Nat) :
    nodesOfItems nested (Node.toJsons free k ns) = .ok ns := by
  induction ns generalizing k with
  | nil => rfl
  | cons n ns ih =>
    rw [Node.toJsons, h n List.mem_cons_self, ih fun m hm => h m (List.mem_cons_of_mem n hm)]
    rfl

theorem nodesOfItems_toJson (hfree : ∀ i, Operator.IsFree (free i)) {n : Node} {levels : Nat}
    (hdepth : n.depth ≤ levels) (hrules : ∀ x ∈ n.rules, x.IsExpressible) (k : Nat)
    (items : List Json) : nodesOfItems (ofMembers levels) (n.toJson free k :: items) =
      (n :: ·) <$> nodesOfItems (ofMembers levels) items := by
  induction n using Node.ind generalizing levels k items with
  | rule r =>
    have hr : r.IsExpressible := hrules r (by simp [Node.rules])
    rw [Node.toJson, nodesOfItems_object, Rule.isGroup_document,
      Rule.ofMembers_document (hfree k) hr]
    rfl
  | group combinator members ih =>
    rw [Node.depth] at hdepth
    obtain ⟨inner, rfl⟩ : ∃ inner, levels = inner + 1 := ⟨levels - 1, by omega⟩
    have hdepths := Node.depths_le_iff.mp (show Node.depths members ≤ inner by omega)
    have hinner : nodesOfItems (ofMembers inner) (Node.toJsons free k members) = .ok members :=
      nodesOfItems_toJsons_of_forall (fun n hn => ih n hn (hdepths n hn) fun x hx =>
        hrules x (Node.mem_rulesOf_iff.mpr ⟨n, hn, hx⟩)) k
    rw [Node.toJson, nodesOfItems_object, isGroup_document, ofMembers_document, hinner]
    rfl

/-- A filter is read from its document when its groups are not nested too deep. -/
theorem ofJson_toJson (hfree : ∀ i, Operator.IsFree (free i)) {g : Group} (hdepth : g.depth ≤ 32)
    (hrules : ∀ x ∈ g.rules, x.IsExpressible) : Group.ofJson (g.toNode.toJson free 0) = .ok g := by
  have hdepths := Node.depths_le_iff.mp (show Node.depths g.members ≤ 31 by
    rw [depth, toNode, Node.depth] at hdepth
    omega)
  have hmembers : nodesOfItems (ofMembers 31) (Node.toJsons free 0 g.members) = .ok g.members :=
    nodesOfItems_toJsons_of_forall (fun n hn => nodesOfItems_toJson hfree (hdepths n hn)
      fun x hx => hrules x (Node.mem_rulesOf_iff.mpr ⟨n, hn, hx⟩)) 0
  have hread := ofMembers_document 31 g.combinator (Node.toJsons free 0 g.members)
  rw [hmembers] at hread
  exact hread

/-- Each member of a group is read from an object among its items. -/
theorem exists_of_mem_nodesOfItems {nested : Members → Except RequestError Group}
    {items : List Json} {nodes : List Node} (h : nodesOfItems nested items = .ok nodes) {n : Node}
    (hn : n ∈ nodes) : ∃ child, .object child ∈ items ∧
      ((∃ g, nested child = .ok g ∧ g.toNode = n) ∨
        ∃ r, Rule.ofMembers child = .ok r ∧ .rule r = n) := by
  induction items generalizing nodes with
  | nil =>
    cases h
    cases hn
  | cons item items ih =>
    have hlater {ms : List Node} (hms : nodesOfItems nested items = .ok ms) (hmem : n ∈ ms) :=
      (ih hms hmem).imp fun child hchild => hchild.imp_left (List.mem_cons_of_mem item)
    cases item with
    | object child =>
      rw [nodesOfItems_object] at h
      obtain ⟨first, hfirst, h⟩ := bind_eq_ok_iff.mp h
      obtain ⟨rest, hrest, rfl⟩ := map_eq_ok_iff.mp h
      rcases List.mem_cons.mp hn with rfl | hn
      · refine ⟨child, List.mem_cons_self, ?_⟩
        split at hfirst
        · exact .inl (map_eq_ok_iff.mp hfirst)
        · exact .inr (map_eq_ok_iff.mp hfirst)
      · exact hlater hrest hn
    | _ => exact hlater h hn

theorem isFinite_of_items {members : Members} {key : String} {items : List Json}
    (hfinite : ∀ member ∈ members, member.2.IsFinite) (h : members.items key = .ok items) :
    ∀ item ∈ items, item.IsFinite := by
  unfold Members.items at h
  split at h
  · cases h
    nofun
  · cases h
    nofun
  · rename_i hget
    cases h
    cases hfinite _ (Members.mem_of_get? hget) with | array hitems
    exact hitems
  · cases h

/-- What is read as a group is nested no deeper than allowed, and its rules are expressible. -/
theorem isExpressible_of_ofMembers {levels : Nat} {members : Members} {g : Group}
    (hfinite : ∀ member ∈ members, member.2.IsFinite) (h : ofMembers levels members = .ok g) :
    g.depth ≤ levels ∧ ∀ x ∈ g.rules, x.IsExpressible := by
  induction levels generalizing members g with
  | zero => cases h
  | succ levels ih =>
    obtain ⟨combinator, -, h⟩ := bind_eq_ok_iff.mp h
    obtain ⟨items, hitems, h⟩ := bind_eq_ok_iff.mp h
    obtain ⟨nodes, hnodes, h⟩ := bind_eq_ok_iff.mp h
    cases h
    have hnode : ∀ n ∈ nodes, n.depth ≤ levels ∧ ∀ x ∈ n.rules, x.IsExpressible := by
      intro n hn
      obtain ⟨child, hchild, hread⟩ := exists_of_mem_nodesOfItems hnodes hn
      cases isFinite_of_items hfinite hitems _ hchild with | object hchild
      rcases hread with ⟨g, hg, rfl⟩ | ⟨r, hr, rfl⟩
      · exact ih hchild hg
      · have hexpressible := Rule.isExpressible_of_ofMembers hchild hr
        exact ⟨Nat.zero_le _, by simpa [Node.rules] using hexpressible⟩
    constructor
    · have hdepths : Node.depths nodes ≤ levels :=
        Node.depths_le_iff.mpr fun n hn => (hnode n hn).1
      rw [depth, toNode, Node.depth, Nat.add_comm]
      exact Nat.add_le_add_right hdepths 1
    · intro x hx
      obtain ⟨n, hn, hx⟩ := Node.mem_rulesOf_iff.mp hx
      exact (hnode n hn).2 x hx

end Group

theorem Group.isFinite_document {combinator : Combinator} {items : List Json}
    (h : ∀ item ∈ items, item.IsFinite) :
    (Json.object (Group.document combinator items)).IsFinite := by
  refine Json.isFinite_ofMembers fun member hmember => ?_
  simp only [List.mem_cons, List.not_mem_nil, or_false] at hmember
  rcases hmember with rfl | rfl
  · exact .string _
  · exact .array h

mutual

theorem Node.isFinite_toJson (free : Nat → String) (k : Nat) (n : Node) :
    (n.toJson free k).IsFinite := by
  cases n with
  | rule r => exact r.isFinite_document (free k)
  | group combinator members => exact Group.isFinite_document (isFinite_toJsons free k members)

theorem Node.isFinite_toJsons (free : Nat → String) (k : Nat) (ns : List Node) :
    ∀ json ∈ toJsons free k ns, json.IsFinite := by
  cases ns with
  | nil => nofun
  | cons n ns =>
    rw [toJsons, List.forall_mem_cons]
    exact ⟨Node.isFinite_toJson free k n, isFinite_toJsons free (k + n.rules.length) ns⟩

end

/-! ## Joins and selected columns -/

theorem Join.ofJson_toJson (j : Join) : Join.ofJson j.toJson = .ok j := by
  unfold toJson Json.ofMembers
  simp [ofJson, Json.members, Members.choice, Members.string, Members.get?_ofList,
    List.lookup_cons, JoinType.ofName?_keyword, bind, Except.bind]

theorem Join.isFinite_toJson (j : Join) : j.toJson.IsFinite :=
  Json.isFinite_ofStrings [("type", j.type.keyword), ("targetTable", j.targetTable),
    ("sourceColumn", j.sourceColumn), ("targetColumn", j.targetColumn)]

theorem SelectedColumn.ofJson_toJson (c : SelectedColumn) :
    SelectedColumn.ofJson c.toJson = .ok c := by
  unfold toJson Json.ofMembers
  simp [ofJson, Json.members, Members.string, Members.get?_ofList, List.lookup_cons, bind,
    Except.bind]

theorem SelectedColumn.isFinite_toJson (c : SelectedColumn) : c.toJson.IsFinite :=
  Json.isFinite_ofStrings [("table", c.table), ("column", c.column), ("alias", c.output)]

/-! ## Requests -/

namespace Request

variable {free : Nat → String} {r : Request}

theorem ofJson_of_isExpressible (hfree : ∀ i, Operator.IsFree (free i)) (h : r.IsExpressible) :
    Request.ofJson (r.toJson free) = .ok r := by
  have hfilter := Group.ofJson_toJson hfree h.depth h.rules
  have hjoins : (r.joins.map Join.toJson).mapM Join.ofJson = .ok r.joins :=
    mapM_map_of_forall fun j _ => j.ofJson_toJson
  have hcolumns :
      (r.columns.map SelectedColumn.toJson).mapM SelectedColumn.ofJson = .ok r.columns :=
    mapM_map_of_forall fun c _ => c.ofJson_toJson
  have hquery : r.filter.toNode.toJson free 0 = .object
      (Group.document r.filter.combinator (Node.toJsons free 0 r.filter.members)) := rfl
  rw [hquery] at hfilter
  unfold toJson Json.ofMembers
  rw [hquery]
  simp [ofJson, Json.members, tableOfMembers, filterOfMembers, Members.items, Members.string,
    Members.get?_ofList, List.lookup_cons, h.table, hfilter, hjoins, hcolumns, bind, Except.bind]

theorem ne_empty_of_tableOfMembers {members : Members} {table : String}
    (h : tableOfMembers members = .ok table) : table ≠ "" := by
  unfold tableOfMembers at h
  split at h
  · cases h
  · rename_i hne
    cases h
    exact hne

theorem isExpressible_of_filterOfMembers {members : Members} {g : Group}
    (hfinite : ∀ member ∈ members, member.2.IsFinite) (h : filterOfMembers members = .ok g) :
    g.depth ≤ 32 ∧ ∀ x ∈ g.rules, x.IsExpressible := by
  unfold filterOfMembers at h
  split at h
  · cases h
    exact ⟨by decide, nofun⟩
  · cases h
    exact ⟨by decide, nofun⟩
  · rename_i json _ hget
    obtain ⟨inner, hinner, h⟩ := bind_eq_ok_iff.mp h
    cases hfinite _ (Members.mem_of_get? hget) with
    | object hall =>
      cases hinner
      exact Group.isExpressible_of_ofMembers hall h
    | _ => cases hinner

theorem isFinite_toJson (free : Nat → String) (r : Request) : (r.toJson free).IsFinite := by
  refine Json.isFinite_ofMembers fun member hmember => ?_
  simp only [List.mem_cons, List.not_mem_nil, or_false] at hmember
  rcases hmember with rfl | rfl | rfl | rfl
  · exact .string _
  · exact Node.isFinite_toJson free 0 _
  · refine .array fun item hitem => ?_
    obtain ⟨j, -, rfl⟩ := List.mem_map.mp hitem
    exact j.isFinite_toJson
  · refine .array fun item hitem => ?_
    obtain ⟨c, -, rfl⟩ := List.mem_map.mp hitem
    exact c.isFinite_toJson

theorem isExpressible_of_ofJson {json : Json} (hfinite : json.IsFinite)
    (h : Request.ofJson json = .ok r) : r.IsExpressible := by
  obtain ⟨members, hmembers, h⟩ := bind_eq_ok_iff.mp h
  obtain ⟨table, htable, h⟩ := bind_eq_ok_iff.mp h
  obtain ⟨filter, hfilter, h⟩ := bind_eq_ok_iff.mp h
  obtain ⟨joinItems, -, h⟩ := bind_eq_ok_iff.mp h
  obtain ⟨joins, -, h⟩ := bind_eq_ok_iff.mp h
  obtain ⟨columnItems, -, h⟩ := bind_eq_ok_iff.mp h
  obtain ⟨columns, -, h⟩ := bind_eq_ok_iff.mp h
  cases h
  have hmember : ∀ member ∈ members, member.2.IsFinite := by
    cases hfinite with
    | object hall =>
      cases hmembers
      exact hall
    | _ => cases hmembers
  have hexpressible := isExpressible_of_filterOfMembers hmember hfilter
  exact ⟨ne_empty_of_tableOfMembers htable, hexpressible.1, hexpressible.2⟩

/-- Reading the document of a request gives the request, whatever names its operators without a
meaning have, if a document can express it. Just these requests are read from documents with finite
numbers; so a request that was read is read again from its own document. -/
theorem toJson_roundTrip (hfree : ∀ i, Operator.IsFree (free i)) (r : Request) :
    (r.IsExpressible → Request.ofJson (r.toJson free) = .ok r) ∧
    (r.IsExpressible ↔ ∃ json, json.IsFinite ∧ Request.ofJson json = .ok r) ∧
    ∀ json, json.IsFinite → Request.ofJson json = .ok r →
      Request.ofJson (r.toJson free) = Request.ofJson json := by
  refine ⟨ofJson_of_isExpressible hfree, ⟨fun h => ?_, ?_⟩, fun json hfinite hread => ?_⟩
  · exact ⟨r.toJson free, isFinite_toJson free r, ofJson_of_isExpressible hfree h⟩
  · rintro ⟨json, hfinite, hread⟩
    exact isExpressible_of_ofJson hfinite hread
  · rw [hread]
    exact ofJson_of_isExpressible hfree (isExpressible_of_ofJson hfinite hread)

/-- A request that is being edited: rules without a field, an operator or a value, and values that
are null or empty. -/
def draft : Request where
  table := "staff"
  filter := ⟨.or, [.rule ⟨"", none, none⟩, .group .and [.group .or []],
    .group .and [.rule ⟨"city", some .other, some .null⟩, .rule ⟨"city", some .other, none⟩],
    .rule ⟨"age", some .isIn, some (.list [.int 7, .text "", .bool true])⟩]⟩
  joins := [⟨.right, "", "home", ""⟩]
  columns := [⟨"", "name", ""⟩]

/-- A draft is read back, with the names `~0`, `~1` and so on for operators without a meaning. -/
theorem toJson_roundTrip_draft : (∀ i : Nat, Operator.IsFree ("~" ++ toString i)) ∧
    draft.IsExpressible ∧ Request.ofJson (draft.toJson fun i => "~" ++ toString i) = .ok draft ∧
    ∃ json, json.IsFinite ∧ Request.ofJson json = .ok draft := by
  have hfree (i : Nat) : Operator.IsFree ("~" ++ toString i) := by
    have hnames : ∀ name ∈ "" :: Operator.names.map Prod.fst, name.toList.head? ≠ some '~' := by
      decide +kernel
    have hhead : ("~" ++ toString i).toList.head? = some '~' := by
      rw [String.toList_append]
      rfl
    exact ⟨fun h => hnames _ (h ▸ List.mem_cons_self) hhead,
      fun h => hnames _ (List.mem_cons_of_mem _ h) hhead⟩
  have hdraft : draft.IsExpressible := by
    refine ⟨by decide +kernel, by decide +kernel, ?_⟩
    simp [draft, Group.rules, Node.rulesOf, Node.rules, Rule.IsExpressible, Value.IsExpressible,
      Value.IsFiniteScalar]
  obtain ⟨hread, hrange, -⟩ := toJson_roundTrip hfree draft
  exact ⟨hfree, hdraft, hread hdraft, hrange.mp hdraft⟩

end Request

end FilterSelect
