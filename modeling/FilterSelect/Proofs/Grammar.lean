import FilterSelect.Proofs.Steps
import FilterSelect.Request.OfJson

/-!
# The grammar of requests

Which documents are requests can be said without reading them, and so can what is wrong with the
others: each part of the grammar comes with the list of its mistakes, from the first to the last. A
document is read when it has no mistake, and otherwise its first one is reported.

* `Json.IsRequest`, `Members.IsGroup`: the documents that are requests, and the groups in them.
* `Json.mistakes`, `Members.groupMistakes`: the mistakes of a document, and of a group.
* `Json.mistakes_eq_nil_iff`: the requests are the documents without mistakes.
* `Request.fault?_ofJson`: reading reports the first mistake.
* `Request.ofJson_mistakes`: when a document is read, and with which mistake it is not.
-/

namespace FilterSelect.Json

/-! ## The grammar -/

/-- Neither a list nor an object. -/
def IsScalar : Json → Prop
  | .array _ | .object _ => False
  | _ => True

/-- A scalar, or a list of scalars. -/
def IsRuleValue : Json → Prop
  | .array items => ∀ item ∈ items, item.IsScalar
  | json => json.IsScalar

/-- One of some names, in any letter case. -/
def IsName (names : List String) (json : Json) : Prop :=
  ∃ name, json = .string name ∧ name.toLower ∈ names

/-- A list whose items fulfil `p`. -/
def IsListOf (p : Json → Prop) (json : Json) : Prop :=
  ∃ items, json = .array items ∧ ∀ item ∈ items, p item

/-- An object whose members fulfil `p`. -/
def IsObjectOf (p : Members → Prop) (json : Json) : Prop :=
  ∃ members, json = .object members ∧ p members

namespace Members

/-- The member is absent, null, or fulfils `p`. -/
def Optional (members : Members) (key : String) (p : Json → Prop) : Prop :=
  ∀ json, members.get? key = some json → json = .null ∨ p json

/-- The rules are a list, which tells a group from a rule. -/
def HasRules (members : Members) : Prop := ∃ items, members.get? "rules" = some (.array items)

/-- The object is an item of the rules; the items that are no objects do not count. -/
def Holds (members child : Members) : Prop :=
  ∃ items, members.get? "rules" = some (.array items) ∧ .object child ∈ items

/-- A rule: its value is absent, a scalar, or a list of scalars. -/
def IsRule (members : Members) : Prop :=
  ∀ json, members.get? "value" = some json → json.IsRuleValue

/-- A group at a depth, which is 1 for the root of a filter and at most 32. -/
inductive IsGroup : Nat → Members → Prop
  | intro {depth : Nat} {members : Members} (shallow : depth ≤ 32)
      (combinator : members.Optional "combinator" (IsName ["and", "or"]))
      (rules : members.Optional "rules" (IsListOf fun _ => True))
      (groups : ∀ child, members.Holds child → child.HasRules → IsGroup (depth + 1) child)
      (leaves : ∀ child, members.Holds child → ¬ child.HasRules → child.IsRule) :
      IsGroup depth members

/-- The members of a request. -/
structure IsRequest (members : Members) : Prop where
  table : ∃ name, members.get? "table" = some (.string name) ∧ name ≠ ""
  query : members.Optional "query" (IsObjectOf (IsGroup 1))
  joins : members.Optional "joins" <| IsListOf <| IsObjectOf fun join =>
    join.Optional "type" (IsName ["inner", "left", "right"])
  columns : members.Optional "selectedColumns" (IsListOf (IsObjectOf fun _ => True))

end Members

/-- A request. -/
def IsRequest : Json → Prop := IsObjectOf Members.IsRequest

/-! ## Mistakes -/

instance : DecidablePred IsScalar
  | .array _ | .object _ => .isFalse id
  | .null | .bool _ | .number _ | .string _ => .isTrue trivial

instance : DecidablePred IsRuleValue
  | .array items => inferInstanceAs (Decidable (∀ item ∈ items, item.IsScalar))
  | .null => inferInstanceAs (Decidable (IsScalar .null))
  | .bool b => inferInstanceAs (Decidable (IsScalar (.bool b)))
  | .number n => inferInstanceAs (Decidable (IsScalar (.number n)))
  | .string s => inferInstanceAs (Decidable (IsScalar (.string s)))
  | .object members => inferInstanceAs (Decidable (IsScalar (.object members)))

/-- What is not one of some names, by its name or by its text. -/
def nameMistakes (names : List String) (mistake : String → RequestError) :
    Json → List RequestError
  | .string name => if name.toLower ∈ names then [] else [mistake name]
  | json => [mistake json.text]

/-- The mistakes of the items, if this is a list. -/
def listMistakes (ofItem : Json → List RequestError) : Json → List RequestError
  | .array items => items.flatMap ofItem
  | _ => [.expectedArray]

/-- The mistakes of the members, if this is an object. -/
def objectMistakes (ofMembers : Members → List RequestError) : Json → List RequestError
  | .object members => ofMembers members
  | _ => [.expectedObject]

namespace Members

/-- The mistakes of a member that may be absent or null. -/
def optionalMistakes (members : Members) (key : String) (ofMember : Json → List RequestError) :
    List RequestError :=
  match members.get? key with
  | none | some .null => []
  | some json => ofMember json

theorem isGroup_eq_true_iff {members : Members} :
    Group.isGroup members = true ↔ members.HasRules := by
  unfold Group.isGroup HasRules
  split
  · rename_i items h
    simp [h]
  · rename_i h
    simpa using fun items => h items

instance : DecidablePred HasRules := fun _ => decidable_of_iff _ isGroup_eq_true_iff

/-- The mistake of a rule: its value is none. -/
def ruleMistakes (members : Members) : List RequestError :=
  match members.get? "value" with
  | none => []
  | some json => if json.IsRuleValue then [] else [.invalidValue (members.string "field")]

/-- The mistakes of an item of a group, given those of the groups in it. -/
def itemMistakes (ofGroup : Members → List RequestError) : Json → List RequestError
  | .object child => if HasRules child then ofGroup child else ruleMistakes child
  | _ => []

/-- The mistakes of a group at a depth. What is too deep is not looked into. -/
def groupMistakes (depth : Nat) : Members → List RequestError := fun members =>
  if depth ≤ 32 then
    members.optionalMistakes "combinator" (nameMistakes ["and", "or"] .invalidCombinator) ++
      members.optionalMistakes "rules" (listMistakes (itemMistakes (groupMistakes (depth + 1))))
  else [.tooDeep 32]
termination_by 33 - depth

/-- The mistake of a request without a table. -/
def tableMistakes (members : Members) : List RequestError :=
  match members.get? "table" with
  | some (.string name) => if name = "" then [.missingTable] else []
  | _ => [.missingTable]

/-- The mistakes of the members of a request: of its table, its filter, its joins and its selected
columns. -/
def requestMistakes (members : Members) : List RequestError :=
  members.tableMistakes ++
    members.optionalMistakes "query" (objectMistakes (groupMistakes 1)) ++
    members.optionalMistakes "joins" (listMistakes <| objectMistakes fun join =>
      join.optionalMistakes "type" (nameMistakes ["inner", "left", "right"] .invalidJoinType)) ++
    members.optionalMistakes "selectedColumns" (listMistakes (objectMistakes fun _ => []))

end Members

/-- The mistakes of a document that should be a request. -/
def mistakes : Json → List RequestError := objectMistakes Members.requestMistakes

/-! ## Requests have no mistakes -/

theorem nameMistakes_eq_nil_iff {names : List String} {mistake : String → RequestError}
    {json : Json} : nameMistakes names mistake json = [] ↔ json.IsName names := by
  cases json with
  | string name => simp [nameMistakes, IsName]
  | _ => simp [nameMistakes, IsName]

section

variable {p : Json → Prop} {q : Members → Prop}

theorem listMistakes_eq_nil_iff {ofItem : Json → List RequestError}
    (h : ∀ item, ofItem item = [] ↔ p item) {json : Json} :
    listMistakes ofItem json = [] ↔ json.IsListOf p := by
  cases json with
  | array items => simp [listMistakes, IsListOf, h]
  | _ => simp [listMistakes, IsListOf]

theorem objectMistakes_eq_nil_iff {ofMembers : Members → List RequestError}
    (h : ∀ members, ofMembers members = [] ↔ q members) {json : Json} :
    objectMistakes ofMembers json = [] ↔ json.IsObjectOf q := by
  cases json with
  | object members => simp [objectMistakes, IsObjectOf, h]
  | _ => simp [objectMistakes, IsObjectOf]

namespace Members

theorem optionalMistakes_eq_nil_iff {ofMember : Json → List RequestError}
    (h : ∀ json, ofMember json = [] ↔ p json) {members : Members} {key : String} :
    members.optionalMistakes key ofMember = [] ↔ members.Optional key p := by
  unfold optionalMistakes Optional
  split
  · rename_i hget
    simp [hget]
  · rename_i hget
    simp [hget]
  · rename_i json hnull hget
    have hne : json ≠ .null := hnull
    simp [hget, hne, h]

theorem ruleMistakes_eq_nil_iff {members : Members} :
    members.ruleMistakes = [] ↔ members.IsRule := by
  unfold ruleMistakes IsRule
  split
  · rename_i hget
    simp [hget]
  · rename_i json hget
    simp [hget]

theorem tableMistakes_eq_nil_iff {members : Members} : members.tableMistakes = [] ↔
    ∃ name, members.get? "table" = some (.string name) ∧ name ≠ "" := by
  unfold tableMistakes
  split
  · rename_i name hget
    simp [hget]
  · rename_i hget
    simpa using fun name h => absurd h (hget name)

/-- The rules are a list whose items fulfil `p` when the objects among them do. -/
theorem optional_rules_iff {members : Members}
    (h : ∀ json : Json, (∀ child, json ≠ .object child) → p json) :
    members.Optional "rules" (IsListOf p) ↔
      members.Optional "rules" (IsListOf fun _ => True) ∧
        ∀ child, members.Holds child → p (.object child) := by
  constructor
  · intro hrules
    refine ⟨fun json hget => ?_, fun child ⟨items, hget, hmem⟩ => ?_⟩
    · refine (hrules json hget).imp_right fun ⟨items, hitems, _⟩ => ?_
      exact ⟨items, hitems, fun _ _ => trivial⟩
    · rcases hrules _ hget with hnull | ⟨_, hitems, hall⟩
      · cases hnull
      · cases hitems
        exact hall _ hmem
  · rintro ⟨hrules, hheld⟩ json hget
    refine (hrules json hget).imp_right ?_
    rintro ⟨items, rfl, -⟩
    refine ⟨items, rfl, fun item hitem => ?_⟩
    cases item with
    | object child => exact hheld child ⟨items, hget, hitem⟩
    | _ => exact h _ nofun

theorem itemMistakes_object_eq_nil_iff {ofGroup : Members → List RequestError} {child : Members}
    (h : ofGroup child = [] ↔ q child) : itemMistakes ofGroup (.object child) = [] ↔
      (child.HasRules → q child) ∧ (¬ child.HasRules → child.IsRule) := by
  rw [itemMistakes]
  by_cases hrules : child.HasRules
  · simp [hrules, h]
  · simp [hrules, ruleMistakes_eq_nil_iff]

theorem groupMistakes_eq_nil_iff {depth : Nat} {members : Members} :
    groupMistakes depth members = [] ↔ IsGroup depth members := by
  -- Induction on how many levels of groups the limit leaves.
  induction hlevels : 33 - depth generalizing depth members with
  | zero =>
    have hdeep : ¬ depth ≤ 32 := by omega
    rw [groupMistakes, if_neg hdeep]
    exact ⟨nofun, fun ⟨shallow, _, _, _, _⟩ => absurd shallow hdeep⟩
  | succ levels ih =>
    have hshallow : depth ≤ 32 := by omega
    have hgroup (child : Members) :
        groupMistakes (depth + 1) child = [] ↔ IsGroup (depth + 1) child := ih (by omega)
    have hitem (child : Members) := itemMistakes_object_eq_nil_iff (hgroup child)
    rw [groupMistakes, if_pos hshallow, List.append_eq_nil_iff,
      optionalMistakes_eq_nil_iff fun _ => nameMistakes_eq_nil_iff,
      optionalMistakes_eq_nil_iff fun _ => listMistakes_eq_nil_iff fun _ => Iff.rfl,
      optional_rules_iff fun json hjson => by cases json <;> simp_all [itemMistakes]]
    constructor
    · rintro ⟨hcombinator, hrules, hheld⟩
      exact ⟨hshallow, hcombinator, hrules,
        fun child hchild => ((hitem child).mp (hheld child hchild)).1,
        fun child hchild => ((hitem child).mp (hheld child hchild)).2⟩
    · rintro ⟨-, hcombinator, hrules, hgroups, hleaves⟩
      exact ⟨hcombinator, hrules, fun child hchild =>
        (hitem child).mpr ⟨hgroups child hchild, hleaves child hchild⟩⟩

theorem requestMistakes_eq_nil_iff {members : Members} :
    members.requestMistakes = [] ↔ members.IsRequest := by
  unfold requestMistakes
  rw [List.append_eq_nil_iff, List.append_eq_nil_iff, List.append_eq_nil_iff,
    tableMistakes_eq_nil_iff,
    optionalMistakes_eq_nil_iff fun _ => objectMistakes_eq_nil_iff fun _ =>
      groupMistakes_eq_nil_iff,
    optionalMistakes_eq_nil_iff fun _ => listMistakes_eq_nil_iff fun _ =>
      objectMistakes_eq_nil_iff fun _ => optionalMistakes_eq_nil_iff fun _ =>
        nameMistakes_eq_nil_iff,
    optionalMistakes_eq_nil_iff fun _ => listMistakes_eq_nil_iff fun _ =>
      objectMistakes_eq_nil_iff fun _ => iff_true_intro rfl]
  constructor
  · rintro ⟨⟨⟨htable, hquery⟩, hjoins⟩, hcolumns⟩
    exact ⟨htable, hquery, hjoins, hcolumns⟩
  · rintro ⟨htable, hquery, hjoins, hcolumns⟩
    exact ⟨⟨⟨htable, hquery⟩, hjoins⟩, hcolumns⟩

end Members

end

theorem mistakes_eq_nil_iff {json : Json} : json.mistakes = [] ↔ json.IsRequest :=
  objectMistakes_eq_nil_iff fun _ => Members.requestMistakes_eq_nil_iff

/-! ## The first mistake -/

section

variable {β : Type} {next : Option RequestError}

theorem fault?_members_bind {f : Members → Except RequestError β}
    {ofMembers : Members → List RequestError}
    (h : ∀ members, fault? (f members) = (ofMembers members).head?) (json : Json) :
    fault? (json.members >>= f) = (objectMistakes ofMembers json).head? := by
  cases json with
  | object members => exact h members
  | _ => rfl

namespace Members

theorem fault?_choice {standard : β} {ofName? : String → Option β}
    {mistake : String → RequestError} {names : List String}
    (h : ∀ name, (ofName? name).isSome = true ↔ name.toLower ∈ names) (members : Members)
    (key : String) : fault? (members.choice key standard ofName? mistake) =
      (members.optionalMistakes key (nameMistakes names mistake)).head? := by
  unfold choice optionalMistakes
  cases members.get? key with
  | none => rfl
  | some json =>
    cases json with
    | string name =>
      simp only [nameMistakes, ← h]
      cases ofName? name <;> rfl
    | _ => rfl

theorem fault?_items_bind {f : List Json → Except RequestError β}
    {ofItem : Json → List RequestError}
    (h : ∀ items, fault? (f items) = (items.flatMap ofItem).head?.or next) (members : Members)
    (key : String) : fault? (members.items key >>= f) =
      (members.optionalMistakes key (listMistakes ofItem)).head?.or next := by
  unfold items optionalMistakes
  cases members.get? key with
  | none => exact h []
  | some json =>
    cases json with
    | null => exact h []
    | array items => exact h items
    | _ => rfl

end Members

end

end FilterSelect.Json

namespace FilterSelect

open Json (Members)

theorem Combinator.isSome_ofName?_iff (name : String) :
    (Combinator.ofName? name).isSome = true ↔ name.toLower ∈ ["and", "or"] := by
  have hand : Combinator.and.name.toLower = "and" := by decide +kernel
  have hor : Combinator.or.name.toLower = "or" := by decide +kernel
  simp [ofName?, Text.sameIgnoringCase, hand, hor, @eq_comm _ name.toLower]

theorem JoinType.isSome_ofName?_iff (name : String) :
    (JoinType.ofName? name).isSome = true ↔ name.toLower ∈ ["inner", "left", "right"] := by
  have hinner : JoinType.inner.keyword.toLower = "inner" := by decide +kernel
  have hleft : JoinType.left.keyword.toLower = "left" := by decide +kernel
  have hright : JoinType.right.keyword.toLower = "right" := by decide +kernel
  simp [ofName?, Text.sameIgnoringCase, hinner, hleft, hright, @eq_comm _ name.toLower]

theorem Value.isSome_ofScalar?_iff (json : Json) :
    (Value.ofScalar? json).isSome = true ↔ json.IsScalar := by
  cases json <;> simp [ofScalar?, Json.IsScalar]

theorem Value.isSome_ofJson?_iff (json : Json) :
    (Value.ofJson? json).isSome = true ↔ json.IsRuleValue := by
  cases json with
  | array items =>
    rw [ofJson?, Option.isSome_map, isSome_mapM_iff]
    simp only [isSome_ofScalar?_iff, Json.IsRuleValue]
  | _ => simp [ofJson?, ofScalar?, Json.IsRuleValue, Json.IsScalar]

theorem Rule.fault?_ofMembers (members : Members) :
    fault? (Rule.ofMembers members) = members.ruleMistakes.head? := by
  have hvalue : fault? (Rule.ofMembers members) = fault? (valueOfMembers members) :=
    fault?_bind_of_ok fun value => rfl
  rw [hvalue, valueOfMembers, Members.ruleMistakes]
  cases members.get? "value" with
  | none => rfl
  | some json =>
    simp only [← Value.isSome_ofJson?_iff]
    cases Value.ofJson? json <;> rfl

theorem Group.fault?_nodesOfItems {nested : Members → Except RequestError Group}
    {ofGroup : Members → List RequestError}
    (h : ∀ members, fault? (nested members) = (ofGroup members).head?) (items : List Json) :
    fault? (nodesOfItems nested items) = (items.flatMap (Members.itemMistakes ofGroup)).head? := by
  induction items with
  | nil => rfl
  | cons item items ih =>
    rw [List.flatMap_cons, List.head?_append, ← ih]
    cases item with
    | object members =>
      have hnext (node : Node) : fault? (do
          let nodes ← nodesOfItems nested items
          .ok (node :: nodes)) = fault? (nodesOfItems nested items) :=
        fault?_bind_of_ok fun nodes => rfl
      rw [nodesOfItems, Members.itemMistakes]
      by_cases hrules : Members.HasRules members
      · rw [if_pos (Members.isGroup_eq_true_iff.mpr hrules), if_pos hrules, ← h,
          ← fault?_map toNode]
        exact fault?_bind hnext
      · rw [if_neg (mt Members.isGroup_eq_true_iff.mp hrules), if_neg hrules,
          ← Rule.fault?_ofMembers, ← fault?_map Node.rule]
        exact fault?_bind hnext
    | _ => rfl

/-- Reading a group reports its first mistake, if as many levels may follow as the limit leaves. -/
theorem Group.fault?_ofMembers {levels depth : Nat} (h : levels + depth = 33) (members : Members) :
    fault? (Group.ofMembers levels members) = (Members.groupMistakes depth members).head? := by
  induction levels generalizing depth members with
  | zero =>
    rw [Members.groupMistakes, if_neg (by omega)]
    rfl
  | succ levels ih =>
    have hnested (child : Members) : fault? (Group.ofMembers levels child) =
        (Members.groupMistakes (depth + 1) child).head? := ih (by omega) child
    rw [Members.groupMistakes, if_pos (by omega), List.head?_append,
      ← Members.fault?_choice Combinator.isSome_ofName?_iff members]
    refine fault?_bind fun combinator => ?_
    refine (Members.fault?_items_bind (fun items => ?_) members "rules").trans Option.or_none
    rw [Option.or_none, ← fault?_nodesOfItems hnested]
    exact fault?_bind_of_ok fun nodes => rfl

theorem Group.fault?_ofJson (json : Json) :
    fault? (Group.ofJson json) = (Json.objectMistakes (Members.groupMistakes 1) json).head? :=
  Json.fault?_members_bind (fun members => fault?_ofMembers rfl members) json

theorem Join.fault?_ofJson (json : Json) : fault? (Join.ofJson json) =
    (Json.objectMistakes (fun join => join.optionalMistakes "type"
      (Json.nameMistakes ["inner", "left", "right"] .invalidJoinType)) json).head? := by
  refine Json.fault?_members_bind (fun members => ?_) json
  rw [← Members.fault?_choice JoinType.isSome_ofName?_iff members]
  exact fault?_bind_of_ok fun type => rfl

theorem SelectedColumn.fault?_ofJson (json : Json) :
    fault? (SelectedColumn.ofJson json) = (Json.objectMistakes (fun _ => []) json).head? :=
  Json.fault?_members_bind (fun _ => rfl) json

namespace Request

theorem fault?_tableOfMembers (members : Members) :
    fault? (tableOfMembers members) = members.tableMistakes.head? := by
  unfold tableOfMembers Members.string Members.tableMistakes
  cases members.get? "table" with
  | none => rfl
  | some json =>
    cases json with
    | string name => by_cases hname : name = "" <;> simp [hname, fault?]
    | _ => rfl

theorem fault?_filterOfMembers (members : Members) : fault? (filterOfMembers members) =
    (members.optionalMistakes "query"
      (Json.objectMistakes (Members.groupMistakes 1))).head? := by
  unfold filterOfMembers Members.optionalMistakes
  cases members.get? "query" with
  | none => rfl
  | some json =>
    cases json with
    | null => rfl
    | _ => exact Group.fault?_ofJson _

/-- Reading a request reports its first mistake. -/
theorem fault?_ofJson (json : Json) : fault? (Request.ofJson json) = json.mistakes.head? := by
  refine Json.fault?_members_bind (fun members => ?_) json
  rw [Members.requestMistakes, List.append_assoc, List.append_assoc, List.head?_append,
    List.head?_append, List.head?_append, ← fault?_tableOfMembers, ← fault?_filterOfMembers]
  refine fault?_bind fun table => fault?_bind fun filter => ?_
  refine Members.fault?_items_bind (fun items => ?_) members "joins"
  rw [← fault?_mapM Join.fault?_ofJson]
  refine fault?_bind fun joins => ?_
  refine (Members.fault?_items_bind (fun items => ?_) members "selectedColumns").trans
    Option.or_none
  rw [Option.or_none, ← fault?_mapM SelectedColumn.fault?_ofJson]
  exact fault?_bind_of_ok fun columns => rfl

/-- A document is read exactly when it is a request, and otherwise its first mistake is reported:
of its table, its filter, its joins and its selected columns, in this order, where the mistakes of a
group come in the order of its depth, its combinator, its rules and their items. -/
theorem ofJson_mistakes (json : Json) :
    ((∃ r, Request.ofJson json = .ok r) ↔ json.IsRequest) ∧
    ∀ e, Request.ofJson json = .error e ↔ json.mistakes.head? = some e := by
  refine ⟨?_, fun e => ?_⟩
  · rw [← fault?_eq_none_iff, fault?_ofJson, List.head?_eq_none_iff, Json.mistakes_eq_nil_iff]
  · rw [← fault?_eq_some_iff, fault?_ofJson]

end Request

end FilterSelect
