namespace MixAsm

/-!
# Outcomes of steps

A step answers with a value or an error, and steps are put one behind another. What the whole
answers is said here once in terms of what its steps answer.

* `bind_eq_ok_iff`, `map_eq_ok_iff` — when the whole answers with a value;
* `bind_eq_error_iff`, `map_eq_error_iff` — when it answers with an error;
* `Yields` — what is known of the value and what of the error, kept along the steps.
-/

variable {ε α β : Type}

/-- A mapped outcome is a value exactly if it is the image of one. -/
theorem map_eq_ok_iff {x : Except ε α} {f : α → β} {b : β} :
    x.map f = .ok b ↔ ∃ a, x = .ok a ∧ f a = b := by
  cases x <;> simp [Except.map]

/-- A mapped outcome is an error exactly if the outcome is. -/
theorem map_eq_error_iff {x : Except ε α} {f : α → β} {e : ε} :
    x.map f = .error e ↔ x = .error e := by
  cases x <;> simp [Except.map]

/-- Two steps in a row give a value exactly if the first one does and the second one on it. -/
theorem bind_eq_ok_iff {x : Except ε α} {f : α → Except ε β} {b : β} :
    (x >>= f) = .ok b ↔ ∃ a, x = .ok a ∧ f a = .ok b := by
  cases x <;> simp [bind, Except.bind]

/-- Two steps in a row give an error exactly if the first one does, or the second one after it. -/
theorem bind_eq_error_iff {x : Except ε α} {f : α → Except ε β} {e : ε} :
    (x >>= f) = .error e ↔ x = .error e ∨ ∃ a, x = .ok a ∧ f a = .error e := by
  cases x <;> simp [bind, Except.bind]

/-- A value has the one property, an error the other. -/
def Yields (Q : α → Prop) (E : ε → Prop) : Except ε α → Prop
  | .ok a => Q a
  | .error e => E e

namespace Yields

variable {Q : α → Prop} {R : β → Prop} {E : ε → Prop} {x : Except ε α}

theorem of_ok {a : α} (h : Yields Q E x) (hx : x = .ok a) : Q a := by
  rw [hx] at h
  exact h

theorem of_error {e : ε} (h : Yields Q E x) (hx : x = .error e) : E e := by
  rw [hx] at h
  exact h

theorem imp {Q' : α → Prop} (h : Yields Q E x) (hvalue : ∀ a, Q a → Q' a) : Yields Q' E x := by
  cases x with
  | ok a => exact hvalue a h
  | error e => exact h

/-- Two steps in a row yield what the second one yields on the values of the first one. -/
theorem bind {f : α → Except ε β} (h : Yields Q E x) (hstep : ∀ a, Q a → Yields R E (f a)) :
    Yields R E (x >>= f) := by
  cases x with
  | ok a => exact hstep a h
  | error e => exact h

theorem map {f : α → β} (h : Yields Q E x) (hvalue : ∀ a, Q a → R (f a)) :
    Yields R E (x.map f) := by
  cases x with
  | ok a => exact hvalue a h
  | error e => exact h

end Yields

end MixAsm
