import MixAsm.Instruction.Parser

namespace MixAsm

/-!
# What an option has a part in

Each option of a reader has a part in one thing only. Which letters are taken decides about the
tokens of a line, which spaces are taken decides about what tokens write, and whether blank lines
are passed over decides about neither.

* `Token.scan_congr` — the tokens of some characters;
* `Instruction.ofTokens_congr` — what tokens write;
* `Instruction.parse_congr` — a whole line.
-/

variable {cfg cfg' : Config}

theorem Config.fold_congr (h : cfg'.caseInsensitive = cfg.caseInsensitive) :
    cfg'.fold = cfg.fold := by
  funext c
  unfold fold
  rw [h]

namespace CharClass

theorem continues_congr (h : cfg'.caseInsensitive = cfg.caseInsensitive) (cls : CharClass) :
    cls.continues cfg' = cls.continues cfg := by
  funext c
  cases cls with
  | letter =>
    show ((cfg'.fold c).isUpper || (cfg'.fold c).isDigit) = _
    rw [Config.fold_congr h]
    rfl
  | digit | space | mark l => rfl

theorem lexeme_congr (h : cfg'.caseInsensitive = cfg.caseInsensitive) (run : List Char)
    (cls : CharClass) : cls.lexeme cfg' run = cls.lexeme cfg run := by
  cases cls with
  | letter =>
    show Lexeme.word (String.ofList (run.map cfg'.fold)) = _
    rw [Config.fold_congr h]
    rfl
  | digit | space | mark l => rfl

end CharClass

namespace Token

/-- Only the letters that are taken have a part in the tokens of a line. -/
theorem scan_congr (h : cfg'.caseInsensitive = cfg.caseInsensitive) (n : Nat) (cs : List Char) :
    scan cfg' n cs = scan cfg n cs := by
  induction n, cs using scan.induct cfg with
  | case1 n => rw [scan, scan]
  | case2 n c rest hnone => rw [scan, scan, Config.fold_congr h, hnone]
  | case3 n c rest cls hcls run stop ih =>
    rw [scan, scan, Config.fold_congr h, hcls]
    simp only [CharClass.continues_congr h, CharClass.lexeme_congr h]
    rw [ih]

end Token

namespace Instruction

open Token

/-- Only the spaces that are taken have a part in what tokens write. -/
theorem ofTokens_congr (h : cfg'.collapseSpaces = cfg.collapseSpaces) (lineEnd : Nat)
    (ts : List Token) : ofTokens cfg' lineEnd ts = ofTokens cfg lineEnd ts := by
  have hgap : ∀ ts, takeGap cfg' lineEnd ts = takeGap cfg lineEnd ts := by
    intro ts
    cases ts with
    | nil => rfl
    | cons t ts =>
      unfold takeGap
      rw [h]
  have hops : ∀ ts m, takeOperands cfg' lineEnd ts m = takeOperands cfg lineEnd ts m := by
    intro ts m
    cases m <;> simp only [takeOperands, takeAddressIndex, hgap]
  simp only [ofTokens, hops]

/-- A line is read alike wherever the same letters and the same spaces are taken. -/
theorem parse_congr (hcase : cfg'.caseInsensitive = cfg.caseInsensitive)
    (hspaces : cfg'.collapseSpaces = cfg.collapseSpaces) (line : String) :
    parse cfg' line = parse cfg line := by
  have htokens : tokenize cfg' line = tokenize cfg line := scan_congr hcase 0 line.toList
  unfold parse
  rw [htokens, hspaces]
  simp only [ofTokens_congr hspaces]

end Instruction

end MixAsm
