import FilterSelect.Sql.Select
import FilterSelect.Text.Blank
import Mathlib.Data.List.TakeWhile

/-!
# The text of a condition is not blank

A group is left out of a statement when it has no clause. Testing its text would do the same: the
text of a filter is blank only when there is no clause in it, whatever the names and values of the
clauses are.

* `Text.IsNonblank`: some character of the text is no blank.
* `Where.strip_sql_eq_nil_iff`: stripped of blanks, the text of a filter is empty exactly when the
  filter has no clause.
* `Select.sql_eq_append`: the text of a statement is its head, and the text of its condition behind
  it, if that is not empty.
-/

namespace FilterSelect

namespace Text

/-- Some character of the text is no blank. -/
def IsNonblank (text : String) : Prop := ∃ c ∈ text.toList, isBlank c = false

theorem isNonblank_append_iff {a b : String} :
    IsNonblank (a ++ b) ↔ IsNonblank a ∨ IsNonblank b := by
  simp [IsNonblank, or_and_right, exists_or]

theorem IsNonblank.append_left {b : String} (h : IsNonblank b) (a : String) :
    IsNonblank (a ++ b) :=
  isNonblank_append_iff.mpr (.inr h)

theorem IsNonblank.append_right {a : String} (h : IsNonblank a) (b : String) :
    IsNonblank (a ++ b) :=
  isNonblank_append_iff.mpr (.inl h)

theorem strip_eq_nil_iff {text : String} : strip text.toList = [] ↔ ¬ IsNonblank text := by
  unfold strip IsNonblank
  rw [List.reverse_eq_nil_iff, List.dropWhile_eq_nil_iff]
  constructor
  · rintro h ⟨c, hc, hnonblank⟩
    rw [← List.takeWhile_append_dropWhile (p := isBlank) (l := text.toList)] at hc
    rcases List.mem_append.mp hc with hc | hc
    · simp [List.mem_takeWhile_imp hc] at hnonblank
    · simp [h c (List.mem_reverse.mpr hc)] at hnonblank
  · intro h c hc
    have hmem := (List.dropWhile_sublist isBlank).mem (List.mem_reverse.mp hc)
    simpa using fun hnonblank => h ⟨c, hmem, hnonblank⟩

end Text

namespace Sql

open Text (IsNonblank)

variable (o : Options)

theorem Condition.isNonblank_sql (c : Condition) : IsNonblank (c.sql o) := by
  cases c with
  | compare subject comparison operand =>
    have hsymbol : IsNonblank comparison.symbol := by
      cases comparison <;> exact ⟨_, List.mem_cons_self, by decide⟩
    exact ((hsymbol.append_left _).append_right _).append_right _
  | isIn subject operands =>
    have hin : IsNonblank " IN (" := ⟨'(', by decide, by decide⟩
    exact ((hin.append_left _).append_right _).append_right _
  | never =>
    have hnever : IsNonblank "1=0" := ⟨'1', by decide, by decide⟩
    exact hnever
  | isLike column pattern =>
    have hlike : IsNonblank " LIKE " := ⟨'L', by decide, by decide⟩
    exact (hlike.append_left _).append_right _
  | isNull column =>
    have hnull : IsNonblank " IS NULL" := ⟨'I', by decide, by decide⟩
    exact hnull.append_left _
  | isNotNull column =>
    have hnull : IsNonblank " IS NOT NULL" := ⟨'I', by decide, by decide⟩
    exact hnull.append_left _

theorem Clause.isNonblank_sql (c : Clause) : IsNonblank (c.sql o) := by
  cases c with
  | condition x => exact x.isNonblank_sql o
  | group combinator clauses =>
    have hopen : IsNonblank "(" := ⟨'(', by decide, by decide⟩
    exact (hopen.append_right _).append_right _

theorem Where.isNonblank_sql_iff {w : Where} : IsNonblank (w.sql o) ↔ w.clauses ≠ [] := by
  unfold sql
  cases w.clauses with
  | nil => simp [Clause.sqls, IsNonblank]
  | cons c cs =>
    have hc := c.isNonblank_sql o
    cases cs with
    | nil => simpa [Clause.sqls] using hc
    | cons d ds =>
      rw [Clause.sqls, Clause.sqls, String.intercalate_cons_cons]
      simpa using (hc.append_right _).append_right _

/-- Stripped of blanks, the text of a filter is empty exactly when the filter has no clause. -/
theorem Where.strip_sql_eq_nil_iff {w : Where} :
    Text.strip (w.sql o).toList = [] ↔ w.clauses = [] := by
  rw [Text.strip_eq_nil_iff, Where.isNonblank_sql_iff, ne_eq, not_not]

/-- The text of a filter is empty exactly when the filter has no clause. -/
theorem Where.sql_eq_empty_iff {w : Where} : w.sql o = "" ↔ w.clauses = [] := by
  constructor
  · intro h
    rw [← Where.strip_sql_eq_nil_iff o, h]
    rfl
  · intro h
    rw [sql, h]
    rfl

/-- What stands behind the head of a statement, given the text of its condition. -/
def whereSql (condition : String) : String :=
  if condition = "" then "" else " WHERE " ++ condition

/-- A statement is its head, and what its condition puts behind it. -/
theorem Select.sql_eq_append (s : Select) :
    s.sql o = s.headSql o ++ whereSql (s.condition.sql o) := by
  unfold sql whereSql
  by_cases h : s.condition.clauses = []
  · have hempty : s.condition.sql o = "" := (Where.sql_eq_empty_iff o).mpr h
    rw [if_pos (List.isEmpty_iff.mpr h), if_pos hempty, String.append_empty]
  · have hsome : s.condition.sql o ≠ "" := mt (Where.sql_eq_empty_iff o).mp h
    rw [if_neg (mt List.isEmpty_iff.mp h), if_neg hsome, String.append_assoc]

/-- The text of the condition can be told from what stands behind the head. -/
theorem whereSql_injective {a b : String} (h : whereSql a = whereSql b) : a = b := by
  have hlong (c : String) : " WHERE " ++ c ≠ "" := by simp
  unfold whereSql at h
  by_cases ha : a = "" <;> by_cases hb : b = ""
  · rw [ha, hb]
  · rw [if_pos ha, if_neg hb] at h
    exact absurd h.symm (hlong b)
  · rw [if_neg ha, if_pos hb] at h
    exact absurd h (hlong a)
  · rw [if_neg ha, if_neg hb] at h
    exact String.append_right_inj " WHERE " |>.mp h

end Sql

end FilterSelect
