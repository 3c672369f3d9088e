import Mathlib.Data.List.TakeWhile
import MixAsm.Proofs.Instruction.Options
import MixAsm.Proofs.Token.CharClass

namespace MixAsm

/-!
# Letters of either case

To take letters of either case is to read the line in capitals: the same tokens in the same
places, the same instruction, or the same error with the same character, word and column. Only
letters have a case, so any other character of the line, such as a letter that is not of the ASCII
range, is met as it is written.

* `Config.capitalsOnly` — the configuration without the licence for small letters;
* `Token.scan_map_toUpper` — the tokens of the characters in capitals;
* `Instruction.parse_toUpper` — a whole line.
-/

variable {cfg : Config}

namespace Config

/-- The configuration that takes capitals only, and is otherwise the same. -/
def capitalsOnly (cfg : Config) : Config := { cfg with caseInsensitive := false }

@[simp] theorem fold_capitalsOnly (c : Char) : cfg.capitalsOnly.fold c = c := rfl

theorem fold_of_caseInsensitive (h : cfg.caseInsensitive) (c : Char) : cfg.fold c = c.toUpper := by
  rw [fold, if_pos h]

end Config

/-! ### One character -/

namespace CharClass

/-- Whether a character continues a token is not changed by its case. -/
theorem continues_toUpper (h : cfg.caseInsensitive) (cls : CharClass) (d : Char) :
    cls.continues cfg.capitalsOnly d.toUpper = cls.continues cfg d := by
  have hfold : cfg.fold d = d.toUpper := Config.fold_of_caseInsensitive h d
  cases cls with
  | letter =>
    show (d.toUpper.isUpper || d.toUpper.isDigit) = ((cfg.fold d).isUpper || (cfg.fold d).isDigit)
    rw [hfold]
  | digit =>
    show d.toUpper.isDigit = d.isDigit
    rw [← hfold, Config.isDigit_fold]
  | space =>
    show decide (d.toUpper = ' ') = decide (d = ' ')
    rw [← hfold]
    exact decide_eq_decide.mpr (Config.fold_eq_iff (by decide))
  | mark l => rfl

/-- What a run of characters writes is what it writes in capitals. A number keeps its characters as
    they are, and digits have no case. -/
theorem lexeme_map_toUpper (h : cfg.caseInsensitive) {cls : CharClass} {run : List Char}
    (hdigits : cls = .digit → ∀ d ∈ run, d.isDigit) :
    cls.lexeme cfg.capitalsOnly (run.map Char.toUpper) = cls.lexeme cfg run := by
  have hfold : ∀ d, cfg.fold d = d.toUpper := Config.fold_of_caseInsensitive h
  cases cls with
  | letter =>
    have hrun : (run.map Char.toUpper).map cfg.capitalsOnly.fold = run.map cfg.fold := by
      rw [List.map_map]
      exact List.map_congr_left fun d _ => (hfold d).symm
    show Lexeme.word _ = Lexeme.word _
    rw [hrun]
  | digit =>
    have hself : ∀ d ∈ run, d.toUpper = id d := by
      intro d hd
      rw [← hfold, Config.fold_of_not_isAlpha (isAlpha_of_isDigit (hdigits rfl d hd)), id]
    have hrun : run.map Char.toUpper = run :=
      (List.map_congr_left hself).trans (List.map_id run)
    show Lexeme.number _ = Lexeme.number _
    rw [hrun]
  | space => rfl
  | mark l => rfl

/-- A character that starts no token is no small letter, so it is met as it is written. -/
theorem toUpper_of_of?_eq_none (h : cfg.caseInsensitive) {c : Char}
    (hc : of? (cfg.fold c) = none) : c.toUpper = c := by
  rw [← Config.fold_of_caseInsensitive h]
  apply Config.fold_of_not_isLower
  intro hlower
  have hletter : of? (cfg.fold c) = some letter :=
    of?_eq_letter_iff.mpr (Config.isUpper_fold_of_isLower h hlower)
  rw [hletter] at hc
  cases hc

end CharClass

/-! ### Tokens -/

namespace Token

/-- **Scanning in capitals.** The tokens of some characters, or the first character that starts
    none, are those of the characters in capitals. -/
theorem scan_map_toUpper (h : cfg.caseInsensitive) (n : Nat) (cs : List Char) :
    scan cfg n cs = scan cfg.capitalsOnly n (cs.map Char.toUpper) := by
  induction n, cs using scan.induct cfg with
  | case1 n => rw [List.map_nil, scan, scan]
  | case2 n c rest hnone =>
    -- the character that is blamed is the same in capitals
    have hupper : c.toUpper = c := CharClass.toUpper_of_of?_eq_none h hnone
    have hnone' : CharClass.of? (cfg.capitalsOnly.fold c.toUpper) = none := by
      rwa [Config.fold_capitalsOnly, ← Config.fold_of_caseInsensitive h]
    rw [List.map_cons, scan, scan, hnone, hnone', hupper]
  | case3 n c rest cls hcls run stop ih =>
    have hcls' : CharClass.of? (cfg.capitalsOnly.fold c.toUpper) = some cls := by
      rwa [Config.fold_capitalsOnly, ← Config.fold_of_caseInsensitive h]
    have hcontinues : cls.continues cfg.capitalsOnly ∘ Char.toUpper = cls.continues cfg :=
      funext fun d => CharClass.continues_toUpper h cls d
    have hlexeme : cls.lexeme cfg.capitalsOnly ((c :: run).map Char.toUpper)
        = cls.lexeme cfg (c :: run) := by
      apply CharClass.lexeme_map_toUpper h
      rintro rfl d hd
      rcases List.mem_cons.mp hd with rfl | hd
      · have hdigit := CharClass.of?_eq_digit_iff.mp hcls
        rwa [Config.isDigit_fold] at hdigit
      · exact List.mem_takeWhile_imp hd
    rw [List.map_cons, scan, scan, hcls, hcls']
    simp only [List.takeWhile_map, List.dropWhile_map, hcontinues, List.length_map]
    rw [← List.map_cons, hlexeme, ih]

end Token

/-! ### Lines -/

namespace Instruction

open Token

/-- Reading tokens depends on the spacing that is allowed, and not on the case. -/
theorem ofTokens_capitalsOnly (lineEnd : Nat) (ts : List Token) :
    ofTokens cfg.capitalsOnly lineEnd ts = ofTokens cfg lineEnd ts :=
  ofTokens_congr rfl lineEnd ts

/-- **Letters of either case.** Where letters of either case are taken, a line has the tokens and
    the instruction that the line in capitals has where they are not, or the same error. -/
theorem parse_toUpper (h : cfg.caseInsensitive) (line : String) :
    tokenize cfg line = tokenize cfg.capitalsOnly line.toUpper ∧
      parse cfg line = parse cfg.capitalsOnly line.toUpper := by
  have htokens : tokenize cfg line = tokenize cfg.capitalsOnly line.toUpper := by
    rw [tokenize, tokenize, String.toUpper, String.toList_map]
    exact scan_map_toUpper h 0 line.toList
  refine ⟨htokens, ?_⟩
  have hlength : line.toUpper.length = line.length := String.length_map
  simp only [parse, htokens, hlength, ofTokens_capitalsOnly]
  rfl

/-- A letter that is not of the ASCII range has no case, and is refused as it is written. -/
theorem parse_toUpper_accent :
    (⟨true, false, true⟩ : Config).caseInsensitive ∧
      tokenize ⟨true, false, true⟩ "ld1n é" = tokenize ⟨false, false, true⟩ "LD1N é" ∧
      parse ⟨true, false, true⟩ "ld1n é" = parse ⟨false, false, true⟩ "LD1N é" ∧
      parse ⟨true, false, true⟩ "ld1n é" = .error ⟨6, .illegalCharacter 'é'⟩ := by
  have hupper : "ld1n é".toUpper = "LD1N é" := by decide +kernel
  have hfold : (⟨true, false, true⟩ : Config).caseInsensitive := rfl
  obtain ⟨htokens, hparse⟩ := parse_toUpper hfold "ld1n é"
  rw [hupper] at htokens hparse
  exact ⟨hfold, htokens, hparse, by decide +kernel⟩

end Instruction

end MixAsm
