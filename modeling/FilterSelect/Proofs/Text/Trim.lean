import FilterSelect.Text.Blank
import Mathlib.Data.List.DropRight
import Mathlib.Data.List.TakeWhile

/-!
# Runs of characters, and trimming

* `takeWhile_append_eq`, `dropWhile_append_eq`: where a run of members of a class ends.
* `Text.trimmed`: the text without the members of a class at its two ends.
* `Text.mem_trimmed`: trimming cuts off members of the class only.
* `Text.trimmed_append`: members of the class beside a text do not count.
-/

namespace FilterSelect

/-- A run of members of a class ends where the next one is not in the class. -/
theorem takeWhile_append_eq {α : Type} {p : α → Bool} {cs rest : List α}
    (hcs : ∀ c ∈ cs, p c = true) (hr : ∀ c ∈ rest.head?, p c = false) :
    (cs ++ rest).takeWhile p = cs := by
  rw [List.takeWhile_append_of_pos hcs]
  cases rest with
  | nil => simp
  | cons d ds => simp [hr d rfl]

theorem dropWhile_append_eq {α : Type} {p : α → Bool} {cs rest : List α}
    (hcs : ∀ c ∈ cs, p c = true) (hr : ∀ c ∈ rest.head?, p c = false) :
    (cs ++ rest).dropWhile p = rest := by
  rw [List.dropWhile_append_of_pos hcs]
  cases rest with
  | nil => simp
  | cons d ds => simp [hr d rfl]

theorem dropWhile_congr {α : Type} {p q : α → Bool} {cs : List α} (h : ∀ c ∈ cs, p c = q c) :
    cs.dropWhile p = cs.dropWhile q := by
  induction cs with
  | nil => rfl
  | cons c cs ih =>
    rw [List.dropWhile_cons, List.dropWhile_cons, h c List.mem_cons_self,
      ih fun d hd => h d (List.mem_cons_of_mem c hd)]

namespace Text

/-- The text without the members of a class at its two ends. -/
def trimmed (p : Char → Bool) (cs : List Char) : List Char :=
  ((cs.dropWhile p).reverse.dropWhile p).reverse

theorem strip_eq_trimmed (cs : List Char) : strip cs = trimmed isBlank cs := rfl

variable {p q : Char → Bool} {cs : List Char}

theorem exists_dropWhile_eq_trimmed (p : Char → Bool) (cs : List Char) :
    ∃ after, cs.dropWhile p = trimmed p cs ++ after ∧ ∀ c ∈ after, p c = true := by
  have hsplit := List.takeWhile_append_dropWhile (p := p) (l := (cs.dropWhile p).reverse)
  refine ⟨((cs.dropWhile p).reverse.takeWhile p).reverse, ?_, fun c hc => ?_⟩
  · unfold trimmed
    rw [← List.reverse_append, hsplit, List.reverse_reverse]
  · exact List.mem_takeWhile_imp (List.mem_reverse.mp hc)

/-- Only members of the class are cut off. -/
theorem mem_trimmed {c : Char} (hc : c ∈ cs) (hp : p c = false) : c ∈ trimmed p cs := by
  obtain ⟨after, hdrop, hafter⟩ := exists_dropWhile_eq_trimmed p cs
  rw [← List.takeWhile_append_dropWhile (p := p) (l := cs), hdrop] at hc
  rcases List.mem_append.mp hc with hc | hc
  · rw [List.mem_takeWhile_imp hc] at hp
    cases hp
  · rcases List.mem_append.mp hc with hc | hc
    · exact hc
    · rw [hafter c hc] at hp
      cases hp

theorem trimmed_congr (h : ∀ c ∈ cs, p c = q c) : trimmed p cs = trimmed q cs := by
  unfold trimmed
  rw [dropWhile_congr h, dropWhile_congr]
  intro c hc
  exact h c ((List.dropWhile_sublist q).mem (List.mem_reverse.mp hc))

/-- A text without members of the class stays as it is. -/
theorem trimmed_of_forall (h : ∀ c ∈ cs, p c = false) : trimmed p cs = cs := by
  have hdrop {ds : List Char} (h : ∀ c ∈ ds, p c = false) : ds.dropWhile p = ds := by
    cases ds with
    | nil => rfl
    | cons c ds => rw [List.dropWhile_cons_of_neg (by simp [h c])]
  unfold trimmed
  rw [hdrop h, hdrop (by simpa using h), List.reverse_reverse]

/-- Members of the class beside a text are cut off with its own. -/
theorem trimmed_append {before after : List Char} (hbefore : ∀ c ∈ before, p c = true)
    (hafter : ∀ c ∈ after, p c = true) : trimmed p (before ++ cs ++ after) = trimmed p cs := by
  have hnil : after.dropWhile p = [] := List.dropWhile_eq_nil_iff.mpr hafter
  unfold trimmed
  rw [List.append_assoc, List.dropWhile_append_of_pos hbefore, List.dropWhile_append]
  split
  · rename_i hempty
    rw [hnil, List.isEmpty_iff.mp hempty]
  · rw [List.reverse_append, List.dropWhile_append_of_pos (by simpa using hafter)]

/-- Nothing remains of members of the class, not even before the end is trimmed. -/
theorem dropWhile_of_trimmed_eq_nil (h : trimmed p cs = []) : cs.dropWhile p = [] := by
  unfold trimmed at h
  rw [List.reverse_eq_nil_iff, List.dropWhile_eq_nil_iff] at h
  rw [← List.dropWhile_idempotent, List.dropWhile_eq_nil_iff]
  simpa using h

end Text

end FilterSelect
