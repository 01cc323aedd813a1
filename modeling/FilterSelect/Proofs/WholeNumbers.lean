import FilterSelect.Proofs.Number.Shortest
import FilterSelect.Proofs.NumberComparison

/-!
# Whole numbers in a rule

A whole number arrives as a number, or it is typed and arrives as its text, and either may be the
only member of a list. The number itself is compared digit by digit. A text, and a list that is read
as a text, is compared as the binary number nearest to it. Up to 2⁵³ the two are the same.

* `WholeForm`: the forms in which a whole number arrives.
* `WholeForm.numeral`: its numeral in a form.
* `ComparesWhole`: how a whole number is compared, whatever its form.
* `comparesWhole`: so it is for every word of 64 bits.
-/

namespace FilterSelect

open Sql (Comparison Condition)

/-! ## Forms -/

/-- The forms in which a whole number arrives. -/
inductive WholeForm
  | number
  | text
  | listOfNumber
  | listOfText
  deriving DecidableEq

namespace WholeForm

/-- The whole number as a value of the form. -/
def value (n : Int64) : WholeForm → Value
  | number => .int n
  | text => .text (toString n.toInt)
  | listOfNumber => .list [.int n]
  | listOfText => .list [.text (toString n.toInt)]

/-- The form of the only member, where there is a list. -/
def member : WholeForm → WholeForm
  | number | listOfNumber => number
  | text | listOfText => text

/-- The numeral of the whole number in a form: a number has its digits, and what is read from a text
is displayed as the number nearest to it. -/
def numeral (n : Int64) : WholeForm → String
  | number => toString n.toInt
  | text | listOfNumber | listOfText => (Binary64.ofInt n.toInt).text

end WholeForm

namespace Operator

/-- The comparison that an operator asks for, if it compares with a single value. -/
def comparison? : Operator → Option Comparison
  | equal | other => some .equal
  | notEqual => some .notEqual
  | op => op.ordering?

/-- The form that an operator looks at: a membership looks at the members of a list. -/
def formOf (op : Operator) (form : WholeForm) : WholeForm :=
  if op = .isIn then form.member else form

end Operator

/-- How a whole number is compared, whatever its form. -/
structure ComparesWhole (n : Int64) : Prop where
  /-- In every form it is a number, and has the numeral of its form. -/
  numeral? : ∀ form : WholeForm, (form.value n).numeral? = some (form.numeral n)
  /-- The nearest number is displayed as the digits of `n` where any number is. -/
  isExact_iff : (Binary64.ofInt n.toInt).text = toString n.toInt ↔
    ∃ x : Binary64, x.isFinite = true ∧ x.text = toString n.toInt
  /-- Up to 53 bits it is, so that the numeral does not depend on the form. -/
  isExact_of_le : n.toInt.natAbs ≤ 2 ^ 53 →
    (Binary64.ofInt n.toInt).text = toString n.toInt
  /-- A rule compares the column as it is with the numeral. -/
  condition : ∀ (o : Options) (s : Scope) (x : Rule) (op : Operator) (c : Condition)
    (form : WholeForm), x.condition s = .ok c → x.operator = some op →
    x.operand = form.value n → ∃ column, s.column x.field = .ok column ∧
      (∀ comparison, op.comparison? = some comparison → c.sql o =
        column.sql o ++ " " ++ comparison.symbol ++ " " ++ (op.formOf form).numeral n) ∧
      (op = .isIn → c.sql o = column.sql o ++ " IN (" ++ (op.formOf form).numeral n ++ ")")

/-! ## Numerals -/

namespace WholeForm

theorem natAbs_toInt_lt (n : Int64) : n.toInt.natAbs < 2 ^ 64 := by
  have hlt := n.toInt_lt
  have hge := n.le_toInt
  omega

/-- Every form shows the digits. -/
theorem toText_value (n : Int64) (form : WholeForm) : (form.value n).toText = toString n.toInt := by
  cases form <;> simp [value, Value.toText, Value.memberTexts, Value.isNull]

theorem numeral?_value (n : Int64) (form : WholeForm) :
    (form.value n).numeral? = some (form.numeral n) := by
  have hread : (Numeral.read? (form.value n).toText).map Binary64.text =
      some (Binary64.ofInt n.toInt).text := by
    rw [toText_value, Numeral.read?_toString (natAbs_toInt_lt n)]
    rfl
  cases form with
  | number => rfl
  | text =>
    simp only [value, Value.toText] at hread
    exact hread
  | listOfNumber | listOfText => exact hread

theorem members_value (n : Int64) (form : WholeForm) :
    (form.value n).members = [form.member.value n] := by
  cases form <;> rfl

end WholeForm

/-! ## Conditions -/

namespace Operator

/-- A number is compared with the column as it is. -/
theorem condition_of_numeral? {op : Operator} {comparison : Comparison}
    (hop : op.comparison? = some comparison) {v : Value} {numeral : String}
    (hv : v.numeral? = some numeral) (column : Sql.ColumnRef) :
    op.condition column v = .compare ⟨column, false⟩ comparison (.number numeral) := by
  have hnumbers : v.isNumeric = true := by simp [Value.isNumeric, hv]
  have hequality (c : Comparison) : Condition.compare ⟨column, !v.isNumeric⟩ c
      (v.operand (!v.isNumeric)) = .compare ⟨column, false⟩ c (.number numeral) := by
    rw [hnumbers, Value.operand_of_numeral? hv]
    rfl
  cases op with
  | equal | other | notEqual =>
    cases hop
    exact hequality _
  | less | greater | atMost | atLeast =>
    cases hop
    show Condition.compare ⟨column, false⟩ _ v.orderingOperand = _
    rw [Value.orderingOperand, hv]
  | _ => cases hop

/-- A membership in a single number compares the column as it is. -/
theorem isIn_condition_of_members {v w : Value} (hv : v.members = [w]) {numeral : String}
    (hw : w.numeral? = some numeral) (column : Sql.ColumnRef) :
    isIn.condition column v = .isIn ⟨column, false⟩ [.number numeral] := by
  have hnumbers : w.isNumeric = true := by simp [Value.isNumeric, hw]
  cases v with
  | list members =>
    cases hv
    simp [condition, comparesNumbers, hnumbers, Value.operand_of_numeral? hw]
  | _ =>
    cases hv
    simp [condition, comparesNumbers, hnumbers, Value.operand_of_numeral? hw]

end Operator

/-- Every word of 64 bits is compared so. -/
theorem comparesWhole (n : Int64) : ComparesWhole n where
  numeral? := WholeForm.numeral?_value n
  isExact_iff := Binary64.text_ofInt_eq_iff (WholeForm.natAbs_toInt_lt n)
  isExact_of_le := Binary64.text_ofInt
  condition o s x op c form h hop hv := by
    obtain ⟨column, hcolumn, hc⟩ := bind_eq_ok_iff.mp h
    cases hc
    rw [hop, Option.getD_some, hv]
    refine ⟨column, hcolumn, fun comparison hcomparison => ?_, ?_⟩
    · have hform : op.formOf form = form := by
        refine if_neg ?_
        rintro rfl
        cases hcomparison
      rw [Operator.condition_of_numeral? hcomparison (form.numeral?_value n), hform]
      simp [Condition.sql, Sql.Subject.sql, Sql.Operand.sql]
    · rintro rfl
      rw [Operator.isIn_condition_of_members (form.members_value n)
        (form.member.numeral?_value n)]
      simp [Condition.sql, Sql.Subject.sql, Sql.Operand.sql, Operator.formOf]

/-- A rule on a list with a typed number. -/
def Rule.onTypedNumber : Rule :=
  ⟨"id", some .atLeast, some (WholeForm.listOfText.value (-9007199254740992))⟩

theorem comparesWhole_onTypedNumber : ∃ c column,
    Rule.onTypedNumber.condition ⟨"band", []⟩ = .ok c ∧
      Scope.column ⟨"band", []⟩ "id" = .ok column ∧
      c.sql {} = "main.\"id\" >= -9007199254740992" := by
  have hwhole := comparesWhole (-9007199254740992)
  obtain ⟨column, hcolumn, hcomparison, -⟩ := hwhole.condition {} ⟨"band", []⟩
    Rule.onTypedNumber .atLeast _ .listOfText rfl rfl rfl
  have hnumeral : (Operator.atLeast.formOf .listOfText).numeral (-9007199254740992) =
      toString (-9007199254740992 : Int64).toInt := hwhole.isExact_of_le (by decide)
  refine ⟨_, column, rfl, hcolumn, ?_⟩
  rw [hcomparison .atLeast rfl, hnumeral]
  cases hcolumn
  decide +kernel

/-- The first positive whole number that is not displayed as its own digits. -/
theorem numeral?_two_pow_add_one :
    (WholeForm.text.value 9007199254740993).numeral? = some "9007199254740992" ∧
      (WholeForm.text.value 9007199254740993).numeral? ≠
        some (toString (9007199254740993 : Int64).toInt) := by
  decide +kernel

end FilterSelect
