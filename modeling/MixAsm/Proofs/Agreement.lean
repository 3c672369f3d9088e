import MixAsm.ParseError

namespace MixAsm

/-!
# Outcomes up to the column

Two readings agree if both give a value, or if both meet the same fault, in whatever column. So the
kind of an error and all it tells of the line are compared, and its place is not.

* `Agree` — outcomes that agree, with values in a given relation;
* `Agree.bind`, `Agree.map` — steps that agree one behind the other.
-/

/-- Both outcomes are values in the relation, or both are errors with the same fault. -/
inductive Agree {α β : Type} (R : α → β → Prop) : Except ParseError α → Except ParseError β → Prop
  | ok {a : α} {b : β} (h : R a b) : Agree R (.ok a) (.ok b)
  | error {e e' : ParseError} (h : e.fault = e'.fault) : Agree R (.error e) (.error e')

namespace Agree

variable {α β γ δ : Type} {R : α → β → Prop} {S : γ → δ → Prop} {x : Except ParseError α}
  {y : Except ParseError β}

/-- Two steps in a row agree if the first ones do, and the second ones on values that the first
    ones may give. -/
theorem bind {f : α → Except ParseError γ} {g : β → Except ParseError δ} (h : Agree R x y)
    (hstep : ∀ a b, R a b → Agree S (f a) (g b)) : Agree S (x >>= f) (y >>= g) := by
  cases h with
  | ok h => exact hstep _ _ h
  | error h => exact .error h

theorem map {f : α → γ} {g : β → δ} (h : Agree R x y) (hvalue : ∀ a b, R a b → S (f a) (g b)) :
    Agree S (x.map f) (y.map g) := by
  cases h with
  | ok h => exact .ok (hvalue _ _ h)
  | error h => exact .error h

end Agree

end MixAsm
