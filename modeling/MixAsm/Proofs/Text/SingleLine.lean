import Mathlib.Data.Nat.Digits.Defs
import MixAsm.Text.Quoted

namespace MixAsm.Text

/-!
# Texts of a single line

A number and a quoted text have no line feed, whatever is shown: what would be one is written with a
backslash.

* `newline_not_mem_toDigits` — numbers;
* `newline_not_mem_quote` — quoted texts.
-/

/-! ### Numbers -/

/-- A number is written with the digits of its base. -/
theorem exists_digitChar_of_mem_toDigits {b n : Nat} {c : Char} (hb : 1 < b)
    (h : c ∈ Nat.toDigits b n) : ∃ d < b, c = Nat.digitChar d := by
  -- the last digit is the remainder, and those in front of it write the quotient
  induction n using Nat.strongRecOn with
  | ind n ih =>
    rw [Nat.toDigits_eq_if hb] at h
    by_cases hn : n < b
    · rw [if_pos hn, List.mem_singleton] at h
      exact ⟨n, hn, h⟩
    · rw [if_neg hn, List.mem_append, List.mem_singleton] at h
      rcases h with h | h
      · exact ih (n / b) (Nat.div_lt_self (by omega) hb) h
      · exact ⟨n % b, Nat.mod_lt n (by omega), h⟩

/-- No digit of a hexadecimal number is a line feed. -/
theorem digitChar_ne_newline {d : Nat} (h : d < 16) : '\n' ≠ Nat.digitChar d := by
  have hdigits : ∀ d < 16, '\n' ≠ Nat.digitChar d := by decide
  exact hdigits d h

theorem newline_not_mem_hexDigits (n : Nat) : '\n' ∉ hexDigits n := by
  intro h
  obtain ⟨d, hd, heq⟩ := exists_digitChar_of_mem_toDigits (by decide) h
  exact digitChar_ne_newline hd heq

/-- A number in decimal is part of a single line. -/
@[simp] theorem newline_not_mem_toDigits (n : Nat) : '\n' ∉ Nat.toDigits 10 n := by
  intro h
  obtain ⟨d, hd, heq⟩ := exists_digitChar_of_mem_toDigits (by decide) h
  exact digitChar_ne_newline (by omega) heq

/-! ### Quoted texts -/

/-- What shows a character is part of a single line. -/
theorem newline_not_mem_escapeChar (mark c : Char) : '\n' ∉ escapeChar mark c := by
  have hhex := newline_not_mem_hexDigits c.toNat
  by_cases hc : c = '\n'
  · subst hc
    simp [escapeChar]
  · have hne : '\n' ≠ c := fun heq => hc heq.symm
    unfold escapeChar
    split_ifs <;> simp [hne, hhex]

/-- A quoted text is a single line, unless line feeds serve as quotation marks. -/
theorem newline_not_mem_quote {mark : Char} (hmark : mark ≠ '\n') (cs : List Char) :
    '\n' ∉ (quote mark cs).toList := by
  rw [quote, String.toList_ofList, List.mem_cons, List.mem_append, List.mem_singleton,
    List.mem_flatMap]
  rintro (h | ⟨c, -, h⟩ | h)
  · exact hmark h.symm
  · exact newline_not_mem_escapeChar mark c h
  · exact hmark h.symm

end MixAsm.Text
