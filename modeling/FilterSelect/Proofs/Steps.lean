import Mathlib.Data.List.Forall2

/-!
# Steps that may fail

A computation that may fail is a chain of steps, and the first fault ends it. Its result is that of
all its steps; its fault is the first among theirs.

* `bind_eq_ok_iff`, `map_eq_ok_iff`, `mapM_eq_ok_iff`: the result of a chain.
* `exists_of_mem_forall₂`, `exists_mem_iff_of_forall₂`: results go with the elements they are of.
* `fault?_bind`, `fault?_mapM`: the fault of a chain.
* `exists_mapM_eq_ok_iff`: the chain of one step on all elements of a list succeeds.
-/

namespace FilterSelect

variable {ε α β : Type}

/-! ## Results -/

theorem bind_eq_ok_iff {x : Except ε α} {f : α → Except ε β} {b : β} :
    x >>= f = .ok b ↔ ∃ a, x = .ok a ∧ f a = .ok b := by
  cases x <;> simp [bind, Except.bind]

theorem map_eq_ok_iff {x : Except ε α} {f : α → β} {b : β} :
    f <$> x = .ok b ↔ ∃ a, x = .ok a ∧ f a = b := by
  cases x <;> simp [Functor.map, Except.map]

theorem mapM_eq_ok_iff {f : α → Except ε β} {xs : List α} {ys : List β} :
    xs.mapM f = .ok ys ↔ List.Forall₂ (fun x y => f x = .ok y) xs ys := by
  induction xs generalizing ys with
  | nil => cases ys <;> simp [pure, Except.pure]
  | cons x xs ih =>
    rw [List.mapM_cons, bind_eq_ok_iff, List.forall₂_cons_left_iff]
    constructor
    · rintro ⟨y, hy, h⟩
      obtain ⟨zs, hzs, h⟩ := bind_eq_ok_iff.mp h
      cases h
      exact ⟨y, zs, hy, ih.mp hzs, rfl⟩
    · rintro ⟨y, zs, hy, hzs, rfl⟩
      exact ⟨y, hy, bind_eq_ok_iff.mpr ⟨zs, ih.mpr hzs, rfl⟩⟩

/-- What is written of each element is read back from all. -/
theorem mapM_map_of_forall {m : Type → Type} [Monad m] [LawfulMonad m] {f : β → m α} {g : α → β}
    {xs : List α} (h : ∀ x ∈ xs, f (g x) = pure x) : (xs.map g).mapM f = pure xs := by
  induction xs with
  | nil => rfl
  | cons x xs ih =>
    have hx := h x List.mem_cons_self
    have ih := ih fun y hy => h y (List.mem_cons_of_mem x hy)
    rw [List.map_cons, List.mapM_cons, hx, pure_bind, ih, pure_bind]

/-- Each element of the second list is related to one of the first. -/
theorem exists_of_mem_forall₂ {R : α → β → Prop} {xs : List α} {ys : List β}
    (h : List.Forall₂ R xs ys) {y : β} (hy : y ∈ ys) : ∃ x ∈ xs, R x y := by
  induction h with
  | nil => cases hy
  | cons hx hxs ih =>
    rcases List.mem_cons.mp hy with rfl | hy
    · exact ⟨_, List.mem_cons_self, hx⟩
    · obtain ⟨x, hmem, hx⟩ := ih hy
      exact ⟨x, List.mem_cons_of_mem _ hmem, hx⟩

/-- Some element of the second list has a property exactly when one of the first has the one that
goes with it. -/
theorem exists_mem_iff_of_forall₂ {R : α → β → Prop} {p : α → Prop} {q : β → Prop}
    {xs : List α} {ys : List β} (h : List.Forall₂ R xs ys)
    (hpq : ∀ x ∈ xs, ∀ y, R x y → (q y ↔ p x)) : (∃ y ∈ ys, q y) ↔ ∃ x ∈ xs, p x := by
  induction h with
  | nil => simp
  | @cons x y xs ys hx _ ih =>
    have ih := ih fun z hz => hpq z (List.mem_cons_of_mem x hz)
    simp only [List.exists_mem_cons_iff, hpq x List.mem_cons_self y hx, ih]

theorem mapM_eq_some_iff {f : α → Option β} {xs : List α} {ys : List β} :
    xs.mapM f = some ys ↔ List.Forall₂ (fun x y => f x = some y) xs ys := by
  induction xs generalizing ys with
  | nil => cases ys <;> simp
  | cons x xs ih =>
    simp [List.mapM_cons, List.forall₂_cons_left_iff, Option.bind_eq_some_iff, ← ih, @eq_comm _ ys]

theorem isSome_mapM_iff {f : α → Option β} {xs : List α} :
    (xs.mapM f).isSome = true ↔ ∀ x ∈ xs, (f x).isSome = true := by
  induction xs with
  | nil => simp
  | cons x xs ih =>
    rw [List.forall_mem_cons, ← ih, List.mapM_cons]
    cases f x with
    | none => simp
    | some y => cases xs.mapM f <;> simp

/-! ## Faults -/

/-- The fault of a step that may fail. -/
def fault? : Except ε α → Option ε
  | .ok _ => none
  | .error e => some e

theorem fault?_eq_some_iff {x : Except ε α} {e : ε} : fault? x = some e ↔ x = .error e := by
  cases x <;> simp [fault?]

theorem fault?_eq_none_iff {x : Except ε α} : fault? x = none ↔ ∃ a, x = .ok a := by
  cases x <;> simp [fault?]

theorem fault?_map (f : α → β) (x : Except ε α) : fault? (f <$> x) = fault? x := by
  cases x <;> rfl

/-- A step reports its own fault, or else that of the next one. -/
theorem fault?_bind {x : Except ε α} {f : α → Except ε β} {next : Option ε}
    (h : ∀ a, fault? (f a) = next) : fault? (x >>= f) = (fault? x).or next := by
  cases x with
  | error => rfl
  | ok a => exact h a

/-- A step is the only one to report a fault when the next one always succeeds. -/
theorem fault?_bind_of_ok {x : Except ε α} {f : α → Except ε β} (h : ∀ a, fault? (f a) = none) :
    fault? (x >>= f) = fault? x := by
  rw [fault?_bind h, Option.or_none]

theorem fault?_mapM {f : α → Except ε β} {faults : α → List ε}
    (h : ∀ x, fault? (f x) = (faults x).head?) (xs : List α) :
    fault? (xs.mapM f) = (xs.flatMap faults).head? := by
  induction xs with
  | nil => rfl
  | cons x xs ih =>
    rw [List.mapM_cons, List.flatMap_cons, List.head?_append, ← h, ← ih]
    exact fault?_bind fun y => fault?_bind_of_ok fun ys => rfl

/-- A computation on each element of a list succeeds when it does on every element. -/
theorem exists_mapM_eq_ok_iff {f : α → Except ε β} {xs : List α} :
    (∃ ys, xs.mapM f = .ok ys) ↔ ∀ x ∈ xs, ∃ y, f x = .ok y := by
  have hfaults (x : α) : fault? (f x) = (fault? (f x)).toList.head? := Option.head?_toList.symm
  rw [← fault?_eq_none_iff, fault?_mapM hfaults, List.head?_eq_none_iff, List.flatMap_eq_nil_iff]
  simp only [Option.toList_eq_nil_iff, fault?_eq_none_iff]

end FilterSelect
