import FilterSelect.Proofs.Normalization

/-!
# Columns and operands agree on what a number is

Whether numbers or texts are compared is decided once for the column and once more for each operand.
The decisions agree: the column stands as it is exactly where all operands are bare numbers, so that
a number is never compared with a text. An ordering leaves its column as it is in any case, and only
its operand tells a number from a text.

* `Sql.Compares`: a text that compares what is on its left with the operands on its right.
* `Operator.Decides`: the decisions on the two sides of a rule's condition, as they are written.
* `Rule.decides_condition`: they agree in the condition of every rule.
-/

namespace FilterSelect

open Sql (Comparison Condition Operand Subject)

/-! ## What is decided -/

/-- The comparison that an ordering asks for. -/
def Operator.ordering? : Operator → Option Comparison
  | less => some .less
  | greater => some .greater
  | atMost => some .atMost
  | atLeast => some .atLeast
  | _ => none

/-- Whether the value is no list. -/
def Value.isScalar : Value → Bool
  | .list _ => false
  | _ => true

/-- The text compares its left side with the operands on its right. -/
inductive Sql.Compares : String → String → List String → Prop
  | comparison (left : String) (c : Comparison) (right : String) :
    Compares (left ++ " " ++ c.symbol ++ " " ++ right) left [right]
  | membership (left : String) (rights : List String) (h : rights ≠ []) :
    Compares (left ++ " IN (" ++ ", ".intercalate rights ++ ")") left rights

/-- The decisions about numbers in the condition that an operator puts on a column, given a value.
-/
structure Operator.Decides (o : Options) (op : Operator) (column : Sql.ColumnRef) (v : Value)
    (c : Condition) : Prop where
  /-- There is nothing to compare with in an empty list. -/
  never : op = .isIn → v = .list [] → c.sql o = "1=0"
  /-- Elsewhere the column stands as it is exactly where all operands are bare numbers. -/
  equality : op.asksEquality → ¬ (op = .isIn ∧ v = .list []) → ∃ subject : Subject,
    subject.column = column ∧
      Sql.Compares (c.sql o) (subject.sql o) (c.operands.map (Operand.sql o)) ∧
      (subject.sql o = column.sql o ↔ ∀ x ∈ c.operands, IsPlain (x.sql o).toList)
  /-- An ordering has its column as it is, and a number or the value's text. -/
  ordering : ∀ comparison, op.ordering? = some comparison → ∃ operand : String,
    c.sql o = column.sql o ++ " " ++ comparison.symbol ++ " " ++ operand ∧
      (IsPlain operand.toList ↔ v.isNumeric) ∧
      (v.isNumeric = false → operand = Sql.literal v.toText)
  /-- A number has the same literal under all these operators. -/
  scalar : ∀ numeral, v.numeral? = some numeral → v.isScalar →
    op.asksEquality ∨ op.ordering?.isSome → c.operands.map (Operand.sql o) = [numeral]

/-! ## The two sides as they are written -/

namespace Sql

/-- A column that stands as it is differs from its normalized text. -/
theorem Subject.sql_eq_column_iff {o : Options} {s : Subject} :
    s.sql o = s.column.sql o ↔ s.isNormalized = false := by
  unfold sql
  cases s.isNormalized with
  | false => simp
  | true =>
    simp only [if_true, Bool.true_eq_false, iff_false]
    intro h
    have hlength := congrArg String.length h
    simp only [normalized, String.length_append] at hlength
    have hopen : "(lower(".length = 7 := by decide
    omega

/-- Only numbers are written as bare numbers. -/
theorem Operand.isPlain_sql_iff {o : Options} (ho : o.fault? = none) {x : Operand}
    (hx : x.IsPlain) : FilterSelect.IsPlain (x.sql o).toList ↔ ∃ numeral, x = .number numeral := by
  constructor
  · intro h
    have htokens : x.tokens o = numberTokens (x.sql o) :=
      (tokens_eq_of_sql_eq ho (x := .number (x.sql o)) (y := x) h hx rfl).symm
    cases x with
    | number numeral => exact ⟨numeral, rfl⟩
    | null | text s =>
      unfold numberTokens at htokens
      split at htokens <;> cases htokens
    | normalizedText s =>
      have hparen := paren_mem_tokens o s
      rw [htokens] at hparen
      unfold numberTokens at hparen
      split at hparen <;> simp at hparen
  · rintro ⟨numeral, rfl⟩
    exact hx

end Sql

/-! ## Values and their operands -/

namespace Value

theorem members_of_isScalar {v : Value} (h : v.isScalar = true) : v.members = [v] := by
  cases v with
  | list => cases h
  | _ => rfl

theorem exists_operand_eq_number_iff {v : Value} {normalize : Bool} :
    (∃ numeral, v.operand normalize = .number numeral) ↔ v.isNumeric := by
  unfold isNumeric
  cases hv : v.numeral? with
  | some numeral => simp [operand_of_numeral? hv]
  | none =>
    cases v with
    | text s => cases normalize <;> simp [operand, hv]
    | _ => simp [operand, hv]

variable {o : Options} (ho : o.fault? = none)
include ho

theorem isPlain_sql_operand_iff {v : Value} {normalize : Bool} :
    IsPlain ((v.operand normalize).sql o).toList ↔ v.isNumeric := by
  rw [Operand.isPlain_sql_iff ho (v.isPlain_operand normalize), exists_operand_eq_number_iff]

theorem isPlain_sql_orderingOperand_iff {v : Value} :
    IsPlain (v.orderingOperand.sql o).toList ↔ v.isNumeric := by
  rw [Operand.isPlain_sql_iff ho v.isPlain_orderingOperand, orderingOperand, isNumeric]
  cases v.numeral? <;> simp

end Value

/-! ## Conditions -/

namespace Operator

/-- An equality or a membership compares one column with the operands of the values that are asked
for, and decides for all of them at once whether they are numbers. -/
theorem condition_of_asksEquality {o : Options} {op : Operator} {v : Value}
    (hop : op.asksEquality = true) (hv : ¬ (op = .isIn ∧ v = .list [])) (column : Sql.ColumnRef) :
    ∃ normalize, Sql.Compares ((op.condition column v).sql o) (Subject.sql o ⟨column, normalize⟩)
        ((op.condition column v).operands.map (Operand.sql o)) ∧
      (op.condition column v).operands =
        (if op = .isIn then v.members else [v]).map (Value.operand normalize) ∧
      (normalize = false ↔ ∀ w ∈ if op = .isIn then v.members else [v], w.isNumeric) := by
  cases op with
  | equal | notEqual | other =>
    exact ⟨!v.isNumeric, .comparison _ _ _, rfl, by simp⟩
  | isIn =>
    cases v with
    | list members =>
      cases members with
      | nil => exact absurd ⟨rfl, rfl⟩ hv
      | cons w ws =>
        refine ⟨_, .membership _ _ (List.cons_ne_nil _ _), rfl, ?_⟩
        simp [comparesNumbers, Value.members]
    | _ =>
      refine ⟨_, .membership _ _ (List.cons_ne_nil _ _), rfl, ?_⟩
      simp [comparesNumbers, Value.members]
  | _ => cases hop

theorem condition_of_ordering? {op : Operator} {comparison : Comparison}
    (hop : op.ordering? = some comparison) (column : Sql.ColumnRef) (v : Value) :
    op.condition column v = .compare ⟨column, false⟩ comparison v.orderingOperand := by
  cases op <;> cases hop <;> rfl

variable {o : Options} (ho : o.fault? = none)
include ho

theorem condition_decides (op : Operator) (column : Sql.ColumnRef) (v : Value) :
    op.Decides o column v (op.condition column v) where
  never hop hv := by
    subst hop hv
    rfl
  equality hop hv := by
    obtain ⟨normalize, hcompares, hoperands, hnumbers⟩ := condition_of_asksEquality hop hv column
    refine ⟨⟨column, normalize⟩, rfl, hcompares, ?_⟩
    rw [hoperands, Sql.Subject.sql_eq_column_iff, hnumbers, List.forall_mem_map]
    simp only [Value.isPlain_sql_operand_iff ho]
  ordering comparison hop := by
    rw [condition_of_ordering? hop]
    refine ⟨v.orderingOperand.sql o, rfl, Value.isPlain_sql_orderingOperand_iff ho, fun hv => ?_⟩
    have hnumeral : v.numeral? = none := by simpa [Value.isNumeric] using hv
    simp [Value.orderingOperand, hnumeral, Operand.sql]
  scalar numeral hnumeral hv hop := by
    rcases hop with hop | hop
    · have hlist : ¬ (op = .isIn ∧ v = .list []) := by
        rintro ⟨-, rfl⟩
        cases hv
      obtain ⟨normalize, -, hoperands, -⟩ :=
        condition_of_asksEquality (o := o) hop hlist column
      rw [Value.members_of_isScalar hv, ite_self] at hoperands
      rw [hoperands, List.map_singleton, Value.operand_of_numeral? hnumeral]
      rfl
    · obtain ⟨comparison, hcomparison⟩ := Option.isSome_iff_exists.mp hop
      rw [condition_of_ordering? hcomparison, Value.orderingOperand, hnumeral]
      rfl

end Operator

/-- In the condition of a rule, the decisions on its column and on its operands agree. -/
theorem Rule.decides_condition {k : Compiler} {s : Scope} {x : Rule} {c : Condition} {op : Operator}
    (h : x.condition s = .ok c) (hop : x.operator = some op) :
    ∃ column, s.column x.field = .ok column ∧ op.Decides k.options column x.operand c := by
  obtain ⟨column, hcolumn, hc⟩ := bind_eq_ok_iff.mp h
  cases hc
  refine ⟨column, hcolumn, ?_⟩
  rw [hop, Option.getD_some]
  exact op.condition_decides k.usable column x.operand

/-- A membership in a number that was typed as a text, a number, and a list with one number. -/
def Rule.nestedNumbers : Rule :=
  ⟨"id", some .isIn, some (.list [.text " 7 ", .int (-3), .list [.text "2.50"]])⟩

theorem Rule.decides_nestedNumbers : ∃ c column, nestedNumbers.condition ⟨"band", []⟩ = .ok c ∧
    nestedNumbers.operator = some .isIn ∧ Scope.column ⟨"band", []⟩ "id" = .ok column ∧
    Operator.Decides {} .isIn column nestedNumbers.operand c ∧
    c.sql {} = "main.\"id\" IN (7, -3, 2.5)" := by
  obtain ⟨column, hcolumn, hdecides⟩ :=
    decides_condition (k := .standard) (s := ⟨"band", []⟩) (x := nestedNumbers) rfl rfl
  exact ⟨_, column, rfl, rfl, hcolumn, hdecides, by decide +kernel⟩

end FilterSelect
