import Mathlib.Algebra.Group.Nat.Defs
import Mathlib.Data.List.Induction
import MixAsm.Text.Decimal

namespace MixAsm.Text

/-!
# Numerals

The integers of the grammar: one or more decimal digits, of any length and with any leading
zeros, and the number that they write in base ten.

* `Numeral n ds` — the digits `ds` write the number `n`;
* `numeral_iff` — the value of a run of digits is the number that the run writes, and nothing but
  a run of digits writes a number.
-/

/-- The digits write the number: the last one counts units, those before it tens. -/
inductive Numeral : Nat → List Char → Prop
  | digit {d : Nat} (hd : d < 10) : Numeral d [Nat.digitChar d]
  | snoc {n d : Nat} {ds : List Char} (hds : Numeral n ds) (hd : d < 10) :
      Numeral (10 * n + d) (ds ++ [Nat.digitChar d])

/-- The decimal digits are the characters of the numbers below ten. -/
theorem isDigit_iff_digitChar {c : Char} :
    c.isDigit ↔ ∃ d, d < 10 ∧ c = Nat.digitChar d := by
  constructor
  · intro h
    have hc : 48 ≤ c.toNat ∧ c.toNat ≤ 57 := Char.isDigit_iff_toNat.mp h
    refine ⟨c.toNat - 48, by omega, ?_⟩
    apply Char.toNat_inj.mp
    rw [Nat.toNat_digitChar_of_lt_ten (by omega)]
    omega
  · rintro ⟨d, hd, rfl⟩
    simpa using hd

namespace Numeral

theorem isNumeral {n : Nat} {ds : List Char} (h : Numeral n ds) : isNumeral ds := by
  induction h with
  | digit hd => simpa [Text.isNumeral] using hd
  | snoc _ hd ih =>
    simp only [Text.isNumeral, Bool.and_eq_true] at ih
    simpa [Text.isNumeral, hd] using ih.2

theorem digitsValue {n : Nat} {ds : List Char} (h : Numeral n ds) : digitsValue ds = n := by
  induction h with
  | digit hd => simp [Text.digitsValue, Nat.ofDigitChars_cons_digitChar_of_lt_ten hd]
  | snoc _ hd ih =>
    rw [Text.digitsValue] at ih ⊢
    rw [Nat.ofDigitChars_append, ih, Nat.ofDigitChars_cons_digitChar_of_lt_ten hd,
      Nat.ofDigitChars_nil]

/-- As a literal the digits have the number for their value. -/
theorem literal?_eq {n : Nat} {ds : List Char} (h : Numeral n ds) : literal? ds = some n := by
  rw [literal?_of_isNumeral h.isNumeral, h.digitsValue]

theorem ne_nil {n : Nat} {ds : List Char} (h : Numeral n ds) : ds ≠ [] := by
  cases h <;> simp

/-- A number is bounded by the number of its digits. -/
theorem lt_pow {n : Nat} {ds : List Char} (h : Numeral n ds) : n < 10 ^ ds.length := by
  induction h with
  | digit hd => simpa using hd
  | snoc _ hd ih =>
    rw [List.length_append, List.length_singleton, Nat.pow_succ]
    omega

end Numeral

/-- Every run of digits writes its value. -/
theorem numeral_digitsValue {ds : List Char} (h : isNumeral ds) : Numeral (digitsValue ds) ds := by
  -- The induction peels off the units, as the digits of a numeral are grouped from the left.
  induction ds using List.reverseRecOn with
  | nil => simp [isNumeral] at h
  | append_singleton ds c ih =>
    simp only [isNumeral, List.all_append, List.all_cons, List.all_nil, Bool.and_true,
      Bool.and_eq_true] at h
    obtain ⟨d, hd, rfl⟩ := isDigit_iff_digitChar.mp h.2.2
    cases ds with
    | nil =>
      simp only [List.nil_append, digitsValue, Nat.ofDigitChars_cons_digitChar_of_lt_ten hd,
        Nat.ofDigitChars_nil, Nat.mul_zero, Nat.zero_add]
      exact .digit hd
    | cons e es =>
      have hfront : isNumeral (e :: es) := by simpa [isNumeral] using h.2.1
      rw [digitsValue, Nat.ofDigitChars_append, Nat.ofDigitChars_cons_digitChar_of_lt_ten hd,
        Nat.ofDigitChars_nil]
      exact .snoc (ih hfront) hd

/-- **Value of a numeral.** A list of characters writes a number exactly if it is a run of digits
    with that value. -/
theorem numeral_iff {n : Nat} {ds : List Char} :
    Numeral n ds ↔ isNumeral ds ∧ digitsValue ds = n := by
  constructor
  · intro h
    exact ⟨h.isNumeral, h.digitsValue⟩
  · rintro ⟨h, rfl⟩
    exact numeral_digitsValue h

/-- The plain decimal form of a number writes it. -/
theorem numeral_toDigits (n : Nat) : Numeral n (Nat.toDigits 10 n) :=
  numeral_iff.mpr ⟨isNumeral_toDigits n, digitsValue_toDigits n⟩

end MixAsm.Text
