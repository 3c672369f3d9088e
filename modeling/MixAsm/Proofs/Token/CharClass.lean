import Mathlib.Tactic.SplitIfs
import MixAsm.Text.Blank
import MixAsm.Token.Lexer

namespace MixAsm

/-!
# Classes of characters

Which characters fall into which class, and what folding the case of a letter leaves alone.

* `isUpper_iff`, `isLower_iff` — capitals and small letters by their numbers;
* `isBlankChar_of_isAlpha` — letters are not blank;
* `Config.toNat_fold_of_isLower` — the capital that a small letter is taken for;
* `Config.fold_eq_iff` — only letters are folded, so any other character is taken for itself;
* `CharClass.of?_eq_letter_iff` and its companions — the characters of each class.
-/

variable {cfg : Config}

/-! ### Letters and digits -/

section

variable {c : Char}

theorem isUpper_iff : c.isUpper ↔ 65 ≤ c.toNat ∧ c.toNat ≤ 90 := decide_eq_true_iff

theorem isLower_iff : c.isLower ↔ 97 ≤ c.toNat ∧ c.toNat ≤ 122 :=
  Bool.and_eq_true_iff.trans (and_congr decide_eq_true_iff decide_eq_true_iff)

/-- A letter is a capital or a small one. -/
theorem isAlpha_iff : c.isAlpha ↔ c.isUpper ∨ c.isLower := Bool.or_eq_true_iff

/-- A digit is no letter. -/
theorem isAlpha_of_isDigit (h : c.isDigit) : c.isAlpha = false := by
  have hc : 48 ≤ c.toNat ∧ c.toNat ≤ 57 := Char.isDigit_iff_toNat.mp h
  rw [Bool.eq_false_iff, Ne, isAlpha_iff, isUpper_iff, isLower_iff]
  omega

/-- A capital is no digit. -/
theorem isDigit_of_isUpper (h : c.isUpper) : c.isDigit = false := by
  rw [Bool.eq_false_iff]
  intro hdigit
  have halpha : c.isAlpha := isAlpha_iff.mpr (.inl h)
  rw [isAlpha_of_isDigit hdigit] at halpha
  cases halpha

/-- A letter is not blank. -/
theorem isBlankChar_of_isAlpha (h : c.isAlpha) : Text.isBlankChar c = false := by
  rw [isAlpha_iff, isUpper_iff, isLower_iff] at h
  simp [Text.isBlankChar, Text.blankRanges]
  omega

end

namespace Config

/-- Only small letters are folded, and only where letters of either case are taken. -/
theorem fold_eq_self {c : Char} (h : ¬ (cfg.caseInsensitive ∧ c.isLower)) : cfg.fold c = c := by
  rw [fold]
  split
  · next hcfg =>
    have hlower : ¬ c.isLower := fun hc => h ⟨hcfg, hc⟩
    rw [isLower_iff] at hlower
    exact dif_neg hlower
  · rfl

/-- A character that is no small letter is taken for itself. -/
theorem fold_of_not_isLower {c : Char} (h : ¬ c.isLower) : cfg.fold c = c :=
  fold_eq_self fun hfold => h hfold.2

/-- A capital is taken for itself. -/
theorem fold_of_isUpper {c : Char} (h : c.isUpper) : cfg.fold c = c := by
  apply fold_of_not_isLower
  rw [isUpper_iff] at h
  rw [isLower_iff]
  omega

/-- Where letters of either case are taken, a small one is taken for the capital 32 places in front
    of it. -/
theorem toNat_fold_of_isLower (hcfg : cfg.caseInsensitive) {c : Char} (h : c.isLower) :
    (cfg.fold c).toNat = c.toNat - 32 := by
  rw [isLower_iff] at h
  have hupper : c.toUpper = ⟨c.val + ('A'.val - 'a'.val), _⟩ := dif_pos h
  have hshift : ('A'.val - 'a'.val).toNat = 4294967264 := by decide
  have hval : ∀ d : Char, d.toNat = d.val.toNat := fun _ => rfl
  rw [fold, if_pos hcfg, hupper, hval, UInt32.toNat_add, hshift, ← hval]
  omega

/-- Where letters of either case are taken, a small one is taken for a capital. -/
theorem isUpper_fold_of_isLower (hcfg : cfg.caseInsensitive) {c : Char} (h : c.isLower) :
    (cfg.fold c).isUpper := by
  rw [isUpper_iff, toNat_fold_of_isLower hcfg h]
  rw [isLower_iff] at h
  omega

/-- A character that is no letter is taken for itself. -/
theorem fold_of_not_isAlpha {c : Char} (h : c.isAlpha = false) : cfg.fold c = c := by
  apply fold_of_not_isLower
  intro hlower
  rw [isAlpha_iff.mpr (.inr hlower)] at h
  cases h

/-- Letters are taken for letters, and nothing else is. -/
@[simp] theorem isAlpha_fold (c : Char) : (cfg.fold c).isAlpha = c.isAlpha := by
  by_cases hfold : cfg.caseInsensitive ∧ c.isLower
  · have hupper : (cfg.fold c).isUpper := isUpper_fold_of_isLower hfold.1 hfold.2
    rw [isAlpha_iff.mpr (.inl hupper), isAlpha_iff.mpr (.inr hfold.2)]
  · rw [fold_eq_self hfold]

/-- Only a character that is no letter is taken for one that is none. -/
theorem fold_eq_iff {c d : Char} (hd : d.isAlpha = false) : cfg.fold c = d ↔ c = d := by
  constructor
  · intro h
    -- a letter would be taken for a letter, which `d` is not
    have hc : c.isAlpha = false := by rw [← isAlpha_fold, h, hd]
    rwa [fold_of_not_isAlpha hc] at h
  · rintro rfl
    exact fold_of_not_isAlpha hd

/-- Digits are the same in either case. -/
@[simp] theorem isDigit_fold (c : Char) : (cfg.fold c).isDigit = c.isDigit := by
  rw [Bool.eq_iff_iff]
  constructor
  · intro h
    rwa [← (fold_eq_iff (isAlpha_of_isDigit h)).mp rfl] at h
  · intro h
    rwa [fold_of_not_isAlpha (isAlpha_of_isDigit h)]

end Config

/-! ### The characters of each class -/

namespace CharClass

theorem of?_eq_letter_iff {c : Char} : of? c = some letter ↔ c.isUpper := by
  have hmark : c.isUpper → c ≠ '(' ∧ c ≠ ')' ∧ c ≠ ':' ∧ c ≠ ',' ∧ c ≠ ' ' := by
    intro h
    refine ⟨?_, ?_, ?_, ?_, ?_⟩ <;> (rintro rfl; simp at h)
  grind [of?]

theorem of?_eq_digit_iff {c : Char} : of? c = some digit ↔ c.isDigit := by
  have hmark : c.isDigit → c ≠ '(' ∧ c ≠ ')' ∧ c ≠ ':' ∧ c ≠ ',' ∧ c ≠ ' ' := by
    intro h
    refine ⟨?_, ?_, ?_, ?_, ?_⟩ <;> (rintro rfl; simp at h)
  have hupper : c.isUpper → c.isDigit = false := isDigit_of_isUpper
  grind [of?]

theorem of?_eq_space_iff {c : Char} : of? c = some space ↔ c = ' ' := by
  grind [of?]

theorem of?_eq_mark_iff {c : Char} {l : Lexeme} :
    of? c = some (mark l) ↔
      (c = '(' ∧ l = .leftParen) ∨ (c = ')' ∧ l = .rightParen) ∨
        (c = ':' ∧ l = .colon) ∨ (c = ',' ∧ l = .comma) := by
  simp only [of?]
  split_ifs <;> grind

end CharClass

end MixAsm
