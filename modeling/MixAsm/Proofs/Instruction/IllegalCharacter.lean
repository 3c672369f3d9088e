import MixAsm.Proofs.Instruction.Language

namespace MixAsm

open Token

/-!
# Illegal characters

The characters that a line may have, one by one. A line with any other character is refused for the
first such character, whatever else is wrong with the line, and no other line is refused for a
character.

* `Config.Admits` — the characters that a line may have;
* `Config.accepts_iff` — they are the ones that start a token;
* `Config.BlamesFirst` — the error of the first character that a line may not have;
* `Instruction.illegalCharacter_iff` — the lines that are refused so.
-/

variable {cfg : Config}

/-! ### The characters of a line -/

namespace Config

/-- A line may have capitals, digits, four marks and the space, and small letters where letters of
    either case are taken. -/
def Admits (cfg : Config) (c : Char) : Prop :=
  ('A' ≤ c ∧ c ≤ 'Z') ∨ ('0' ≤ c ∧ c ≤ '9') ∨ c ∈ ['(', ')', ':', ',', ' '] ∨
    cfg.caseInsensitive ∧ 'a' ≤ c ∧ c ≤ 'z'

/-- A letter is taken for a capital if it is one, or if letters of either case are taken. -/
theorem isUpper_fold_iff {c : Char} :
    (cfg.fold c).isUpper ↔ c.isUpper ∨ cfg.caseInsensitive ∧ c.isLower := by
  by_cases hfold : cfg.caseInsensitive ∧ c.isLower
  · have hupper : (cfg.fold c).isUpper := isUpper_fold_of_isLower hfold.1 hfold.2
    simp [hupper, hfold]
  · simp [fold_eq_self hfold, hfold]

end Config

namespace CharClass

/-- The characters that have a class. -/
theorem isSome_of?_iff {c : Char} :
    (of? c).isSome ↔ c.isUpper ∨ c.isDigit ∨ c ∈ ['(', ')', ':', ',', ' '] := by
  simp only [of?]
  split_ifs <;> simp_all

end CharClass

namespace Config

/-- The characters that a line may have are those that start a token. -/
theorem accepts_iff {c : Char} : cfg.accepts c ↔ cfg.Admits c := by
  have hmark : cfg.fold c ∈ ['(', ')', ':', ',', ' '] ↔ c ∈ ['(', ')', ':', ',', ' '] := by
    simp (disch := decide) [fold_eq_iff]
  have hupper : c.isUpper ↔ 'A' ≤ c ∧ c ≤ 'Z' := isUpper_iff
  have hlower : c.isLower ↔ 'a' ≤ c ∧ c ≤ 'z' := isLower_iff
  have hdigit : c.isDigit ↔ '0' ≤ c ∧ c ≤ '9' := Char.isDigit_iff_toNat
  rw [accepts, CharClass.isSome_of?_iff, isUpper_fold_iff, isDigit_fold, hmark, Admits, hupper,
    hlower, hdigit]
  -- small letters come last
  exact or_assoc.trans (or_congr_right (or_comm.trans or_assoc))

/-- The error blames the first character of the line that may not be there, as it is written, in the
    column behind the characters in front of it. -/
def BlamesFirst (cfg : Config) (line : List Char) (e : ParseError) : Prop :=
  ∃ pre c post, line = pre ++ c :: post ∧ (∀ d ∈ pre, cfg.Admits d) ∧ ¬ cfg.Admits c ∧
    e = ⟨pre.length + 1, .illegalCharacter c⟩

end Config

/-! ### Lines -/

/-- The tokens of a line are missing exactly for its first illegal character. -/
theorem Token.tokenize_eq_error_iff {line : String} {e : ParseError} :
    tokenize cfg line = .error e ↔ cfg.BlamesFirst line.toList e := by
  rw [tokenize, scan_eq_error_iff, Config.BlamesFirst]
  simp only [Config.accepts_iff, Nat.zero_add, ← Bool.not_eq_true]

/-- A line that has tokens has the characters that it may have only. -/
theorem Token.admits_of_tokenize {line : String} {ts : List Token}
    (h : tokenize cfg line = .ok ts) : ∀ c ∈ line.toList, cfg.Admits c := by
  intro c hc
  have hts : Tiles cfg 0 line.toList ts := scan_eq_ok_iff.mp h
  exact Config.accepts_iff.mp (hts.isSome_class hc)

/-- They are missing for a character, and exactly if there is an illegal one. -/
theorem Token.exists_tokenize_eq_error_iff {line : String} :
    (∃ e, tokenize cfg line = .error e) ↔ ∃ c ∈ line.toList, ¬ cfg.Admits c := by
  constructor
  · rintro ⟨e, he⟩
    obtain ⟨pre, c, post, hline, -, hc, -⟩ := tokenize_eq_error_iff.mp he
    exact ⟨c, by simp [hline], hc⟩
  · rintro ⟨c, hmem, hc⟩
    cases htokens : tokenize cfg line with
    | ok ts => exact absurd (admits_of_tokenize htokens c hmem) hc
    | error e => exact ⟨e, rfl⟩

/-- Whatever reading stops for, it is not a character. -/
theorem Stops.kind_ne {lineEnd : Nat} {p : List Char} {ts : List Token} {e : ParseError}
    (h : Stops cfg lineEnd p ts e) : e.kind ≠ .lexical := by
  cases h <;> rintro ⟨⟩

namespace Instruction

/-- A line is refused for a character exactly if its tokens are missing for it. -/
theorem parse_eq_error_and_lexical_iff {line : String} {e : ParseError} :
    parse cfg line = .error e ∧ e.kind = .lexical ↔ tokenize cfg line = .error e := by
  constructor
  · rintro ⟨herror, hkind⟩
    cases htokens : tokenize cfg line with
    | ok ts =>
      -- reading the tokens stops for another reason
      obtain ⟨_, _, _, _, _, -, -, -, -, -, hstops⟩ := stops_of_tokenize htokens herror
      exact absurd hkind hstops.kind_ne
    | error e' =>
      rw [parse, htokens] at herror
      exact congrArg Except.error (Except.error.inj herror)
  · intro htokens
    obtain ⟨pre, c, post, -, -, -, rfl⟩ := tokenize_eq_error_iff.mp htokens
    refine ⟨?_, rfl⟩
    rw [parse, htokens]
    rfl

/-- A line that is read has the characters that it may have only. -/
theorem admits_of_parse {line : String} {ins : Instruction} (h : parse cfg line = .ok ins) :
    ∀ c ∈ line.toList, cfg.Admits c := by
  obtain ⟨ts, hts, -⟩ := parse_eq_ok_iff.mp h
  exact admits_of_tokenize (scan_eq_ok_iff.mpr hts)

/-- **Illegal characters.** A line has no tokens, and is refused for a character, exactly if it has
    a character that a line may not have. The first such character is blamed in either case,
    whatever else is wrong with the line. -/
theorem illegalCharacter_iff (cfg : Config) (line : String) :
    ((∃ e, tokenize cfg line = .error e ∧ e.kind = .lexical) ↔
      ∃ c ∈ line.toList, ¬ cfg.Admits c) ∧
    ((∃ e, parse cfg line = .error e ∧ e.kind = .lexical) ↔
      ∃ c ∈ line.toList, ¬ cfg.Admits c) ∧
    (∀ e, tokenize cfg line = .error e ↔ cfg.BlamesFirst line.toList e) ∧
    ∀ e, parse cfg line = .error e ∧ e.kind = .lexical ↔ cfg.BlamesFirst line.toList e := by
  have hlexical : ∀ e, tokenize cfg line = .error e → e.kind = .lexical := by
    intro e he
    obtain ⟨pre, c, post, -, -, -, rfl⟩ := tokenize_eq_error_iff.mp he
    rfl
  refine ⟨?_, ?_, fun e => tokenize_eq_error_iff, fun e => ?_⟩
  · rw [← exists_tokenize_eq_error_iff]
    exact exists_congr fun e => and_iff_left_of_imp (hlexical e)
  · simp only [parse_eq_error_and_lexical_iff, exists_tokenize_eq_error_iff]
  · rw [parse_eq_error_and_lexical_iff, tokenize_eq_error_iff]

/-- The word names no opcode, but the accent behind it is blamed, in a column of characters. -/
example : parse {} "FOO éé" = .error ⟨5, .illegalCharacter 'é'⟩ := by decide +kernel

end Instruction

end MixAsm
