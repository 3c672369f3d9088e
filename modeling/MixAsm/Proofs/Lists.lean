import Mathlib.Data.List.Forall2

namespace MixAsm

/-!
# Lists

* `lookup_filter` — lookup where pairs with other keys are taken away;
* `mapM_id_eq_some_iff` — values none of which is missing;
* `forall₂_filterMap` — two views of the members of a list;
* `exists_getElem?_of_forall₂` — members in the same place of two lists.
-/

/-- What is found under a key is the same where pairs are taken away that all have other keys. -/
theorem lookup_filter {α β : Type} [BEq α] [LawfulBEq α] {key : α} {keep : α × β → Bool}
    (h : ∀ x : α × β, x.1 = key → keep x) (xs : List (α × β)) :
    (xs.filter keep).lookup key = xs.lookup key := by
  induction xs with
  | nil => rfl
  | cons x xs ih =>
    by_cases hx : keep x
    · rw [List.filter_cons_of_pos hx, List.lookup_cons, List.lookup_cons, ih]
    · have hne : (key == x.1) = false := by
        rw [beq_eq_false_iff_ne]
        intro heq
        exact hx (h x heq.symm)
      rw [List.filter_cons_of_neg hx, ih, List.lookup_cons, hne]

/-- The values of a list can be had together if none is missing. -/
theorem mapM_id_eq_some_iff {α : Type} {xs : List (Option α)} {ys : List α} :
    xs.mapM id = some ys ↔ xs = ys.map some := by
  induction xs generalizing ys with
  | nil => cases ys <;> simp
  | cons x xs ih =>
    simp only [List.mapM_cons, id, Option.bind_eq_bind, Option.bind_eq_some_iff, ih,
      Option.pure_def, Option.some.injEq]
    constructor
    · rintro ⟨y, rfl, ys, rfl, rfl⟩
      rfl
    · cases ys with
      | nil => simp
      | cons y ys =>
        intro h
        obtain ⟨rfl, rfl⟩ := List.cons.inj h
        exact ⟨y, rfl, ys, rfl, rfl⟩

/-- Two views of the members of a list tell alike of it if they do of each member. -/
theorem forall₂_filterMap {α β γ : Type} {R : β → γ → Prop} {f : α → Option β} {g : α → Option γ}
    (h : ∀ a, Option.Rel R (f a) (g a)) (xs : List α) :
    List.Forall₂ R (xs.filterMap f) (xs.filterMap g) := by
  have hlift : ∀ a b, a = b → Option.Rel R (f a) (g b) := by
    rintro a _ rfl
    exact h a
  exact List.rel_filterMap hlift (List.forall₂_refl xs)

/-- Where lists are related member by member, a member of the one has another in its place. -/
theorem exists_getElem?_of_forall₂ {α β : Type} {R : α → β → Prop} {xs : List α} {ys : List β}
    (h : List.Forall₂ R xs ys) {i : Nat} {x : α} (hx : xs[i]? = some x) :
    ∃ y, ys[i]? = some y ∧ R x y := by
  obtain ⟨hlt, rfl⟩ := List.getElem?_eq_some_iff.mp hx
  have hlt' : i < ys.length := by rwa [← h.length_eq]
  exact ⟨ys[i], List.getElem?_eq_getElem hlt', h.get hlt hlt'⟩

end MixAsm
