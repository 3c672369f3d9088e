import MixAsm.Proofs.Text.Numeral

namespace MixAsm.Text

/-!
# Literals

A literal is a numeral with one plus sign in front of it at most. Its value is a number of any size;
a machine that works it out digit by digit in a word, and gives up once a digit does not fit, finds
the same value or finds that there is no room for it.

* `Literal n cs` — the characters `cs` write the number `n`;
* `literal?_eq_some_iff` — the value of a text is the number that it writes;
* `literalIn?` — the value worked out in a word;
* `literalIn?_eq` — it is lost only if it does not fit.
-/

/-- The characters are a numeral of the number, or one behind a plus sign. -/
inductive Literal : Nat → List Char → Prop
  | plain {n : Nat} {ds : List Char} (h : Numeral n ds) : Literal n ds
  | plus {n : Nat} {ds : List Char} (h : Numeral n ds) : Literal n ('+' :: ds)

variable {cs ds : List Char} {n size : Nat}

/-- A text is what is left without its plus sign, or that behind one. -/
theorem eq_dropPlus_or (cs : List Char) : cs = dropPlus cs ∨ cs = '+' :: dropPlus cs := by
  unfold dropPlus
  split
  · exact .inr rfl
  · exact .inl rfl

/-- A text writes a number exactly if it has that value. -/
theorem literal?_eq_some_iff : literal? cs = some n ↔ Literal n cs := by
  constructor
  · intro h
    rw [literal?] at h
    split at h
    · next hdigits =>
      have hnumeral := numeral_digitsValue hdigits
      rw [Option.some.inj h] at hnumeral
      obtain hcs | hcs := eq_dropPlus_or cs
      · rw [hcs]
        exact .plain hnumeral
      · rw [hcs]
        exact .plus hnumeral
    · cases h
  · intro h
    cases h with
    | plain h =>
      obtain ⟨hdigits, hvalue⟩ := numeral_iff.mp h
      rw [literal?_of_isNumeral hdigits, hvalue]
    | @plus ds h =>
      obtain ⟨hdigits, hvalue⟩ := numeral_iff.mp h
      show (if isNumeral ds then some (digitsValue ds) else none) = some n
      rw [if_pos hdigits, hvalue]

/-! ### Words -/

/-- The number, if it is one of the `size` values of a word. -/
def fits? (size n : Nat) : Option Nat := if n < size then some n else none

/-- The number with one more digit behind it: the number is moved up one place and the digit is
    added, and neither may overflow. -/
def addDigit? (size n : Nat) (c : Char) : Option Nat :=
  (fits? size (10 * n)).bind fun n => fits? size (n + (c.toNat - '0'.toNat))

/-- The value of digits worked out in a word, from the left. -/
def accumulate? (size : Nat) (ds : List Char) : Option Nat := ds.foldlM (addDigit? size) 0

/-- The value of a literal worked out in a word. -/
def literalIn? (size : Nat) (cs : List Char) : Option Nat :=
  if isNumeral (dropPlus cs) then accumulate? size (dropPlus cs) else none

/-- A number that is too large to be moved up is too large with the digit as well. -/
theorem addDigit?_digitChar {d : Nat} (hd : d < 10) :
    addDigit? size n (Nat.digitChar d) = fits? size (10 * n + d) := by
  have hdigit : (Nat.digitChar d).toNat - '0'.toNat = d := by
    rw [Nat.toNat_digitChar_of_lt_ten hd]
    exact Nat.add_sub_cancel_left ..
  by_cases hmoved : 10 * n < size
  · rw [addDigit?, fits?, if_pos hmoved, Option.bind_some, hdigit]
  · rw [addDigit?, fits?, if_neg hmoved, Option.bind_none, fits?, if_neg (by omega)]

/-- **No wrapping.** Digits are worked out in a word exactly if the number that they write fits. -/
theorem accumulate?_eq (hsize : 0 < size) (h : Numeral n ds) :
    accumulate? size ds = fits? size n := by
  -- the induction is from the right, where the last digit is added
  induction h with
  | @digit d hd =>
    show (addDigit? size 0 (Nat.digitChar d)).bind some = fits? size d
    rw [addDigit?_digitChar hd, Option.bind_fun_some, Nat.mul_zero, Nat.zero_add]
  | @snoc n d ds _ hd ih =>
    have hlast : accumulate? size (ds ++ [Nat.digitChar d])
        = (accumulate? size ds).bind (addDigit? size · (Nat.digitChar d)) := by
      simp [accumulate?, List.foldlM_append]
    rw [hlast, ih]
    simp only [addDigit?_digitChar hd]
    by_cases hfits : n < size
    · rw [fits?, if_pos hfits, Option.bind_some]
    · rw [fits?, if_neg hfits, Option.bind_none, fits?, if_neg (by omega)]

/-- **Value in a word.** The value of a literal is lost in a word only if it does not fit. -/
theorem literalIn?_eq (hsize : 0 < size) (cs : List Char) :
    literalIn? size cs = (literal? cs).bind (fits? size) := by
  rw [literalIn?, literal?]
  split
  · next hdigits => exact accumulate?_eq hsize (numeral_digitsValue hdigits)
  · rfl

end MixAsm.Text
