namespace MixAsm.Text

/-!
# Decimal literals

Unsigned numbers written in decimal digits, of any length and with any leading zeros.

* `digitsValue` — the exact value of a run of digits;
* `literal?` — a run of digits behind at most one plus sign;
* `literal?_toDigits` — the plain decimal form of a number reads as that number.
-/

/-- The exact value of a run of decimal digits. -/
def digitsValue (digits : List Char) : Nat := Nat.ofDigitChars 10 digits 0

/-- Is the text a run of one or more decimal digits? -/
def isNumeral (cs : List Char) : Bool := !cs.isEmpty && cs.all Char.isDigit

/-- A text without the one plus sign it may start with. -/
def dropPlus : List Char → List Char
  | '+' :: rest => rest
  | cs => cs

/-- The value of a run of one or more decimal digits that one plus sign may precede. -/
def literal? (cs : List Char) : Option Nat :=
  if isNumeral (dropPlus cs) then some (digitsValue (dropPlus cs)) else none

/-- The plain decimal form of a number is a run of digits. -/
theorem isNumeral_toDigits (n : Nat) : isNumeral (Nat.toDigits 10 n) := by
  simp only [isNumeral, Bool.and_eq_true, Bool.not_eq_true', List.isEmpty_eq_false_iff,
    List.all_eq_true]
  exact ⟨Nat.toDigits_ne_nil, fun c hc => Nat.isDigit_of_mem_toDigits (by decide) (by decide) hc⟩

@[simp] theorem digitsValue_toDigits (n : Nat) : digitsValue (Nat.toDigits 10 n) = n :=
  Nat.ofDigitChars_ten_toDigits

theorem isDigit_of_isNumeral {cs : List Char} (h : isNumeral cs) {c : Char} (hc : c ∈ cs) :
    c.isDigit := by
  simp only [isNumeral, Bool.and_eq_true, List.all_eq_true] at h
  exact h.2 c hc

/-- A run of digits has no plus sign to drop. -/
theorem dropPlus_of_isNumeral {cs : List Char} (h : isNumeral cs) : dropPlus cs = cs := by
  cases cs with
  | nil => rfl
  | cons c rest =>
    unfold dropPlus
    split
    · next heq =>
      simp only [List.cons.injEq] at heq
      simp [isNumeral, heq.1] at h
    · rfl

/-- A run of digits is a literal with the value of the run. -/
theorem literal?_of_isNumeral {cs : List Char} (h : isNumeral cs) :
    literal? cs = some (digitsValue cs) := by
  simp [literal?, dropPlus_of_isNumeral h, h]

/-- The plain decimal form of a number reads as that number. -/
theorem literal?_toDigits (n : Nat) : literal? (Nat.toDigits 10 n) = some n := by
  simp [literal?_of_isNumeral (isNumeral_toDigits n)]

end MixAsm.Text
