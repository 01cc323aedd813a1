import FilterSelect.Json.Basic
import Mathlib.Data.String.Basic

/-!
# The members of an object

* `Members.get?_insert`, `Members.get?_ofList`: each key has the value that it was given last.
* `Members.mem_of_mem_ofList`: an object has no members but those it was given.
* `Members.isOrdered_ofList`: each key stands in an object once, in the order of keys.
* `Members.perm_ofList`: an object has the members it was given, if their keys are different.
-/

namespace FilterSelect.Json.Members

theorem mem_of_get? {members : Members} {key : String} {json : Json}
    (h : members.get? key = some json) : (key, json) ∈ members := by
  obtain ⟨before, after, rfl, -⟩ := List.lookup_eq_some_iff.mp h
  simp

theorem get?_cons (key : String) (value : Json) (members : Members) (k : String) :
    get? ((key, value) :: members) k = if k = key then some value else members.get? k := by
  unfold get?
  rw [List.lookup_cons]
  by_cases h : k = key
  · simp [h]
  · rw [beq_false_of_ne h, if_neg h]

theorem get?_insert (key : String) (value : Json) (members : Members) (k : String) :
    (insert key value members).get? k = if k = key then some value else members.get? k := by
  induction members with
  | nil => exact get?_cons key value [] k
  | cons member members ih =>
    obtain ⟨l, other⟩ := member
    rw [insert]
    by_cases hlt : key < l
    · rw [if_pos hlt, get?_cons]
    · by_cases heq : key = l
      · rw [if_neg hlt, if_pos heq, get?_cons, get?_cons, ← heq]
        by_cases hk : k = key <;> simp [hk]
      · rw [if_neg hlt, if_neg heq, get?_cons, ih, get?_cons]
        -- The two keys differ, so at most one of them is the one looked up.
        by_cases hk : k = key
        · simp [hk, heq]
        · simp [hk]

theorem get?_foldl_insert (members : List (String × Json)) (start : Members) (k : String) :
    get? (members.foldl (fun ms (k, v) => insert k v ms) start) k =
      (members.reverse.lookup k).or (start.get? k) := by
  induction members generalizing start with
  | nil => rfl
  | cons member members ih =>
    obtain ⟨key, value⟩ := member
    have hlast : List.lookup k [(key, value)] = if k = key then some value else none :=
      get?_cons key value [] k
    rw [List.foldl_cons, ih, get?_insert, List.reverse_cons, List.lookup_append, Option.or_assoc,
      hlast]
    by_cases hk : k = key <;> simp [hk]

theorem get?_ofList (members : List (String × Json)) (k : String) :
    (ofList members).get? k = members.reverse.lookup k :=
  (get?_foldl_insert members [] k).trans Option.or_none

theorem mem_of_mem_insert {key : String} {value : Json} {members : Members}
    {member : String × Json} (h : member ∈ insert key value members) :
    member = (key, value) ∨ member ∈ members := by
  induction members with
  | nil => simpa [insert] using h
  | cons first members ih =>
    rw [insert] at h
    split at h
    · simpa using h
    · split at h
      · rcases List.mem_cons.mp h with h | h
        · exact .inl h
        · exact .inr (List.mem_cons_of_mem _ h)
      · rcases List.mem_cons.mp h with rfl | h
        · exact .inr List.mem_cons_self
        · exact (ih h).imp_right (List.mem_cons_of_mem _)

theorem mem_of_mem_foldl_insert {members : List (String × Json)} {start : Members}
    {member : String × Json}
    (h : member ∈ members.foldl (fun ms (k, v) => insert k v ms) start) :
    member ∈ members ∨ member ∈ start := by
  induction members generalizing start with
  | nil => exact .inr h
  | cons first members ih =>
    rcases ih h with h | h
    · exact .inl (List.mem_cons_of_mem _ h)
    · rcases mem_of_mem_insert h with rfl | h
      · exact .inl List.mem_cons_self
      · exact .inr h

theorem mem_of_mem_ofList {members : List (String × Json)} {member : String × Json}
    (h : member ∈ ofList members) : member ∈ members :=
  (mem_of_mem_foldl_insert h).resolve_right List.not_mem_nil

/-! ## The order of keys -/

/-- The keys are in order, each once. -/
def IsOrdered (members : Members) : Prop := members.Pairwise fun a b => a.1 < b.1

theorem IsOrdered.nodup {members : Members} (h : members.IsOrdered) :
    (members.map Prod.fst).Nodup := by
  rw [List.Nodup, List.pairwise_map]
  exact h.imp fun hlt => ne_of_lt hlt

theorem isOrdered_insert {members : Members} (h : members.IsOrdered) (key : String)
    (value : Json) : (insert key value members).IsOrdered := by
  induction members with
  | nil => exact List.pairwise_singleton _ _
  | cons member members ih =>
    obtain ⟨k, v⟩ := member
    obtain ⟨hfirst, hrest⟩ := List.pairwise_cons.mp h
    rw [insert]
    by_cases hlt : key < k
    · rw [if_pos hlt]
      refine List.pairwise_cons.mpr ⟨?_, h⟩
      intro other hother
      rcases List.mem_cons.mp hother with rfl | hother
      · exact hlt
      · exact hlt.trans (hfirst other hother)
    · by_cases heq : key = k
      · rw [if_neg hlt, if_pos heq]
        subst heq
        exact List.pairwise_cons.mpr ⟨hfirst, hrest⟩
      · rw [if_neg hlt, if_neg heq]
        refine List.pairwise_cons.mpr ⟨?_, ih hrest⟩
        intro other hother
        rcases mem_of_mem_insert hother with rfl | hother
        · exact lt_of_le_of_ne (not_lt.mp hlt) (Ne.symm heq)
        · exact hfirst other hother

theorem isOrdered_foldl_insert (members : List (String × Json)) {start : Members}
    (h : start.IsOrdered) :
    IsOrdered (members.foldl (fun ms (k, v) => insert k v ms) start) := by
  induction members generalizing start with
  | nil => exact h
  | cons member members ih => exact ih (isOrdered_insert h member.1 member.2)

/-- The members of a built object are in the order of their keys. -/
theorem isOrdered_ofList (members : List (String × Json)) : (ofList members).IsOrdered :=
  isOrdered_foldl_insert members List.Pairwise.nil

/-- A member that an object has changes nothing. -/
theorem insert_eq_self {members : Members} (h : members.IsOrdered) {key : String} {value : Json}
    (hget : members.get? key = some value) : insert key value members = members := by
  induction members with
  | nil => cases hget
  | cons member members ih =>
    obtain ⟨k, v⟩ := member
    obtain ⟨hfirst, hrest⟩ := List.pairwise_cons.mp h
    have hle : k ≤ key := by
      rcases List.mem_cons.mp (mem_of_get? hget) with heq | hmem
      · exact le_of_eq (Prod.mk.inj heq).1.symm
      · exact le_of_lt (hfirst _ hmem)
    rw [get?_cons] at hget
    rw [insert, if_neg (not_lt.mpr hle)]
    by_cases heq : key = k
    · rw [if_pos heq] at hget ⊢
      rw [heq, Option.some.inj hget]
    · rw [if_neg heq] at hget ⊢
      rw [ih hrest hget]

theorem perm_insert {key : String} {members : Members} (h : key ∉ members.map Prod.fst)
    (value : Json) : (insert key value members).Perm ((key, value) :: members) := by
  induction members with
  | nil => exact .refl _
  | cons member members ih =>
    obtain ⟨k, v⟩ := member
    rw [List.map_cons, List.mem_cons, not_or] at h
    rw [insert]
    by_cases hlt : key < k
    · rw [if_pos hlt]
    · rw [if_neg hlt, if_neg h.1]
      exact ((ih h.2).cons _).trans (.swap _ _ _)

theorem perm_foldl_insert {members : List (String × Json)} {start : Members}
    (h : ((members ++ start).map Prod.fst).Nodup) :
    List.Perm (members.foldl (fun ms (k, v) => insert k v ms) start) (members ++ start) := by
  induction members generalizing start with
  | nil => exact .refl _
  | cons member members ih =>
    obtain ⟨k, v⟩ := member
    have hk : k ∉ start.map Prod.fst := by
      intro hmem
      rw [List.cons_append, List.map_cons, List.nodup_cons, List.map_append] at h
      exact h.1 (List.mem_append_right _ hmem)
    have hall : List.Perm (members ++ insert k v start) ((k, v) :: members ++ start) :=
      ((perm_insert hk v).append_left members).trans List.perm_middle
    exact (ih ((hall.map Prod.fst).nodup_iff.mpr h)).trans hall

/-- An object that is built of members with different keys has just these members. -/
theorem perm_ofList {members : List (String × Json)} (h : (members.map Prod.fst).Nodup) :
    (ofList members).Perm members := by
  have hall : (ofList members).Perm (members ++ []) :=
    perm_foldl_insert (by rwa [List.append_nil])
  rwa [List.append_nil] at hall

theorem mem_iff_get? {members : Members} (h : (members.map Prod.fst).Nodup) {key : String}
    {value : Json} : (key, value) ∈ members ↔ members.get? key = some value := by
  refine ⟨fun hmem => ?_, mem_of_get?⟩
  induction members with
  | nil => cases hmem
  | cons member members ih =>
    obtain ⟨k, v⟩ := member
    rw [List.map_cons, List.nodup_cons] at h
    rw [get?_cons]
    rcases List.mem_cons.mp hmem with heq | hrest
    · cases heq
      exact if_pos rfl
    · have hne : key ≠ k := by
        rintro rfl
        exact h.1 (List.mem_map.mpr ⟨_, hrest, rfl⟩)
      rw [if_neg hne]
      exact ih h.2 hrest

end FilterSelect.Json.Members
