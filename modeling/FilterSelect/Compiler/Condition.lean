import FilterSelect.Compiler.Scope

/-!
# From rules to conditions

Numbers are compared as numbers and texts as texts: when a value is not numeric, the column is
cast to text and both sides are normalized, so that neither case nor accents count. Orderings are
never normalized, and null tests have nothing to compare.

* `Rule.condition`: the condition of a complete rule.
* `Group.condition`: the condition of a filter; incomplete rules, and groups without a condition,
  are left out.
-/

namespace FilterSelect

/-- The operand of an equality or a membership: null, a number, or the value's text. Only a text
itself is normalized. -/
def Value.operand (normalize : Bool) (v : Value) : Sql.Operand :=
  match v with
  | .null => .null
  | v =>
    match v.numeral?, v with
    | some numeral, _ => .number numeral
    | none, .text s => if normalize then .normalizedText s else .text s
    | none, v => .text v.toText

/-- The operand of an ordering: a number, or the value's text. -/
def Value.orderingOperand (v : Value) : Sql.Operand :=
  match v.numeral? with
  | some numeral => .number numeral
  | none => .text v.toText

namespace Operator

/-- Whether a column and a value are compared as numbers: the value is numeric, or for a
membership each member of a list that is not empty. -/
def comparesNumbers (op : Operator) (v : Value) : Bool :=
  match op, v with
  | .isIn, .list members => !members.isEmpty && members.all Value.isNumeric
  | _, v => v.isNumeric

/-- The condition that an operator puts on a column, given a value. -/
def condition (op : Operator) (column : Sql.ColumnRef) (v : Value) : Sql.Condition :=
  let normalize := !op.comparesNumbers v
  let subject : Sql.Subject := ⟨column, normalize⟩
  let ordered (comparison : Sql.Comparison) : Sql.Condition :=
    .compare ⟨column, false⟩ comparison v.orderingOperand
  match op with
  | equal | other => .compare subject .equal (v.operand normalize)
  | notEqual => .compare subject .notEqual (v.operand normalize)
  | less => ordered .less
  | greater => ordered .greater
  | atMost => ordered .atMost
  | atLeast => ordered .atLeast
  | contains => .isLike column ("%" ++ v.toText ++ "%")
  | beginsWith => .isLike column (v.toText ++ "%")
  | endsWith => .isLike column ("%" ++ v.toText)
  | isNull => .isNull column
  | isNotNull => .isNotNull column
  | isIn =>
    match v with
    | .list [] => .never
    | .list members => .isIn subject (members.map (Value.operand normalize))
    | v => .isIn subject [v.operand normalize]

end Operator

/-- The condition of a rule; a rule without an operator asks for equality. -/
def Rule.condition (s : Scope) (r : Rule) : Except CompileError Sql.Condition := do
  let column ← s.column r.field
  .ok ((r.operator.getD .other).condition column r.operand)

namespace Node

mutual

/-- The clause of a member, if it contributes one. -/
def clause? (s : Scope) : Node → Except CompileError (Option Sql.Clause)
  | .rule r =>
    if r.isComplete then do
      let condition ← r.condition s
      .ok (some (.condition condition))
    else .ok none
  | .group combinator members => do
    match ← clauses s members with
    | [] => .ok none
    | c :: cs => .ok (some (.group combinator (c :: cs)))

/-- The clauses of the members that contribute one, in order. -/
def clauses (s : Scope) : List Node → Except CompileError (List Sql.Clause)
  | [] => .ok []
  | n :: ns => do
    let clause ← n.clause? s
    let rest ← clauses s ns
    .ok (clause.toList ++ rest)

end

end Node

/-- The condition of a filter. -/
def Group.condition (s : Scope) (g : Group) : Except CompileError Sql.Where := do
  let clauses ← Node.clauses s g.members
  .ok ⟨g.combinator, clauses⟩

end FilterSelect
