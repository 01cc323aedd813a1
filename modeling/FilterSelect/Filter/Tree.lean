import FilterSelect.Filter.Field
import FilterSelect.Filter.Operator
import FilterSelect.Value.Basic

/-!
# Filter trees

A filter is a group of rules and of further groups. A rule being edited may lack its field, its
operator or its value; pruning takes away what cannot be submitted yet.

* `Rule.isComplete`: the rule can be compiled.
* `Rule.isSubmittable`: the rule is complete and has a value where it needs one.
* `Group.prune`: the submittable rules, without the groups that have none.
* `Group.modifyAt?`: a change of the group at a path of positions.
-/

namespace FilterSelect

/-- A column, what is asked of it, and what it is compared with. -/
structure Rule where
  field : String
  operator : Option Operator
  value : Option Value

namespace Rule

/-- Whether the rule has an operator and a field with all its parts. -/
def isComplete (r : Rule) : Bool := r.operator.isSome && (Field.ofText r.field).isComplete

/-- What the column is compared with; an absent value is null. -/
def operand (r : Rule) : Value := r.value.getD .null

/-- Whether the rule carries a value other than the empty text. -/
def hasValue (r : Rule) : Bool :=
  match r.value with
  | none => false
  | some (.text s) => s ≠ ""
  | some _ => true

/-- Whether the rule is complete, and has a value unless it asks for null. -/
def isSubmittable (r : Rule) : Bool :=
  r.isComplete && (r.operator.any Operator.isNullTest || r.hasValue)

end Rule

/-- A member of a filter: a rule, or a group of members. -/
inductive Node
  | rule (r : Rule)
  | group (combinator : Combinator) (members : List Node)

namespace Node

mutual

/-- How deep the groups are nested; a rule has no depth. -/
def depth : Node → Nat
  | .rule _ => 0
  | .group _ members => 1 + depths members

/-- The depth of the deepest member. -/
def depths : List Node → Nat
  | [] => 0
  | n :: ns => max n.depth (depths ns)

end

mutual

/-- What remains of a member; a group goes when nothing of its members remains. -/
def prune? : Node → Option Node
  | .rule r => if r.isSubmittable then some (.rule r) else none
  | .group c members =>
    match pruneAll members with
    | [] => none
    | n :: ns => some (.group c (n :: ns))

/-- What remains of the members of a group, in order. -/
def pruneAll : List Node → List Node
  | [] => []
  | n :: ns => n.prune?.toList ++ pruneAll ns

end

end Node

/-- The group at the root of a filter. -/
structure Group where
  combinator : Combinator := .and
  members : List Node := []

namespace Group

/-- The group as a member of another. -/
def toNode (g : Group) : Node := .group g.combinator g.members

/-- Whether the group has no members. -/
def isEmpty (g : Group) : Bool := g.members.isEmpty

/-- How deep the groups are nested; a group without groups in it has depth 1. -/
def depth (g : Group) : Nat := g.toNode.depth

/-- The group with one more member at its end. -/
def add (g : Group) (n : Node) : Group := { g with members := g.members ++ [n] }

/-- The group as the only member of a new one. -/
def wrap (g : Group) (c : Combinator) : Group := ⟨c, [g.toNode]⟩

/-- The group without the rules that cannot be submitted and the groups that have none. -/
def prune (g : Group) : Group := { g with members := Node.pruneAll g.members }

/-- The filter with the group at a path changed; none when the path leads to no group. Each step
of the path is the position of a member. -/
def modifyAt? (change : Group → Group) : List Nat → Group → Option Group
  | [], g => some (change g)
  | position :: path, g =>
    match g.members[position]? with
    | some (.group c members) =>
      (modifyAt? change path ⟨c, members⟩).map fun inner =>
        { g with members := g.members.set position inner.toNode }
    | _ => none

end Group

end FilterSelect
