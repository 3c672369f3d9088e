import Mathlib.Tactic.SplitIfs
import MixAsm.Json.Lexer
import MixAsm.Json.Writer

namespace MixAsm.Json

/-!
# Strings are read back

What is written for a character inside a string is read as one piece, and the piece stands for the
character. So a string in quotation marks is read as its text, with every quotation mark, backslash
and control character in it.

* `Piece.StandsFor` — a piece that stands for one character by itself;
* `exists_readString_escape` — the piece that a written character is read as;
* `exists_readString_quoted` — a whole string.
-/

/-- Wherever the piece is, the character is there among those that all pieces stand for. -/
def Piece.StandsFor (p : Piece) (c : Char) : Prop :=
  ∀ ps, joinPieces (p :: ps) = (joinPieces ps).map (c :: ·)

theorem Piece.standsFor_char (c : Char) : (char c).StandsFor c := fun _ => rfl

/-- A code unit that is no surrogate stands for the character with its number. -/
theorem Piece.standsFor_unit {c : Char} (h : c.toNat < 0xD800) : (unit c.toNat).StandsFor c := by
  intro ps
  have hhigh : ¬ (0xD800 ≤ c.toNat ∧ c.toNat < 0xDC00) := by omega
  have hlow : ¬ (0xDC00 ≤ c.toNat ∧ c.toNat < 0xE000) := by omega
  rw [joinPieces.eq_def]
  simp only [if_neg hhigh, if_neg hlow, Char.ofNat_toNat]

/-! ### Reading one piece -/

/-- The piece in front of what is read from the rest. -/
def readThen (p : Piece) (cs : List Char) : Option (List Piece × List Char) :=
  (readString cs).map fun (ps, rest) => (p :: ps, rest)

theorem readString_quote (cs : List Char) : readString ('"' :: cs) = some ([], cs) := by
  rw [readString.eq_def]
  rfl

theorem readString_char {c : Char} (hquote : c ≠ '"') (hslash : c ≠ '\\') (hc : 0x20 ≤ c.toNat)
    (cs : List Char) : readString (c :: cs) = readThen (.char c) cs := by
  have hcontrol : ¬ c.toNat < 0x20 := by omega
  rw [readString.eq_def]
  simp only [if_neg hquote, if_neg hslash, if_neg hcontrol]
  cases hcs : readString cs <;> simp [readThen, hcs]

theorem readString_letter {e c : Char} (hu : e ≠ 'u') (h : unescape? e = some c) (cs : List Char) :
    readString ('\\' :: e :: cs) = readThen (.char c) cs := by
  rw [readString.eq_def]
  simp only [if_neg (show ¬ '\\' = '"' by decide), if_true]
  split
  · next heq => exact absurd (List.cons.inj heq).1 hu
  · next heq =>
    obtain ⟨rfl, rfl⟩ := List.cons.inj heq
    cases hcs : readString cs <;> simp [readThen, hcs, h]
  · next heq => cases heq

theorem readString_unit {a b d e : Char} {u : Nat} (h : codeUnit? a b d e = some u)
    (cs : List Char) : readString ('\\' :: 'u' :: a :: b :: d :: e :: cs) = readThen (.unit u) cs := by
  rw [readString]
  cases hcs : readString cs <;> simp [readThen, hcs, h]

/-! ### Characters -/

/-- The digit of a number below sixteen has its value. -/
theorem hexDigit?_digitChar {d : Nat} (h : d < 16) : hexDigit? d.digitChar = some d := by
  revert d
  decide

/-- The four digits that are written for a control character have its number. -/
theorem codeUnit?_control {n : Nat} (h : n < 0x20) :
    codeUnit? '0' '0' (n / 16).digitChar (n % 16).digitChar = some n := by
  have hhigh := hexDigit?_digitChar (d := n / 16) (by omega)
  have hlow := hexDigit?_digitChar (d := n % 16) (by omega)
  have hzero : hexDigit? '0' = some 0 := rfl
  unfold codeUnit?
  simp only [hhigh, hlow, hzero, Option.bind_eq_bind, Option.bind_some, Option.pure_def]
  congr 1
  omega

/-- A character is written as a letter behind a backslash, as its number, or as it is. -/
theorem escape_cases (c : Char) :
    (∃ e, e ≠ 'u' ∧ unescape? e = some c ∧ escape c = ['\\', e]) ∨
      (c.toNat < 0x20 ∧
        escape c = ['\\', 'u', '0', '0', (c.toNat / 16).digitChar, (c.toNat % 16).digitChar]) ∨
      (c ≠ '"' ∧ c ≠ '\\' ∧ 0x20 ≤ c.toNat ∧ escape c = [c]) := by
  unfold escape
  split_ifs with hquote hslash hbackspace hfeed hnewline hreturn htab hcontrol
  · exact .inl ⟨'"', by decide, by subst hquote; rfl, rfl⟩
  · exact .inl ⟨'\\', by decide, by subst hslash; rfl, rfl⟩
  · exact .inl ⟨'b', by decide, by subst hbackspace; rfl, rfl⟩
  · exact .inl ⟨'f', by decide, by subst hfeed; rfl, rfl⟩
  · exact .inl ⟨'n', by decide, by subst hnewline; rfl, rfl⟩
  · exact .inl ⟨'r', by decide, by subst hreturn; rfl, rfl⟩
  · exact .inl ⟨'t', by decide, by subst htab; rfl, rfl⟩
  · exact .inr (.inl ⟨hcontrol, rfl⟩)
  · exact .inr (.inr ⟨hquote, hslash, by omega, rfl⟩)

/-- **Characters of a string.** What is written for a character is read as one piece that stands
    for it. -/
theorem exists_readString_escape (c : Char) :
    ∃ p : Piece, p.StandsFor c ∧ ∀ cs, readString (escape c ++ cs) = readThen p cs := by
  rcases escape_cases c with ⟨e, hu, he, hescape⟩ | ⟨hcontrol, hescape⟩ |
    ⟨hquote, hslash, hc, hescape⟩
  · refine ⟨.char c, Piece.standsFor_char c, fun cs => ?_⟩
    rw [hescape]
    exact readString_letter hu he cs
  · refine ⟨.unit c.toNat, Piece.standsFor_unit (by omega), fun cs => ?_⟩
    rw [hescape]
    exact readString_unit (codeUnit?_control hcontrol) cs
  · refine ⟨.char c, Piece.standsFor_char c, fun cs => ?_⟩
    rw [hescape]
    exact readString_char hquote hslash hc cs

/-- The pieces that a written text is read as stand for its characters. -/
theorem exists_readString_flatMap (text rest : List Char) :
    ∃ ps, readString (text.flatMap escape ++ '"' :: rest) = some (ps, rest) ∧
      joinPieces ps = some text := by
  induction text with
  | nil => exact ⟨[], readString_quote rest, rfl⟩
  | cons c text ih =>
    obtain ⟨ps, hread, hjoin⟩ := ih
    obtain ⟨p, hstands, hp⟩ := exists_readString_escape c
    refine ⟨p :: ps, ?_, ?_⟩
    · rw [List.flatMap_cons, List.append_assoc, hp, readThen, hread, Option.map_some]
    · rw [hstands, hjoin, Option.map_some]

/-- **Strings.** A string in quotation marks is read as its text, and what follows is left. A text
    that is not well-formed is read as one that is not. -/
theorem exists_readString_quoted (text : Text) (rest : List Char) :
    ∃ cs ps, quoted text ++ rest = '"' :: cs ∧ readString cs = some (ps, rest) ∧
      (joinPieces ps).map String.ofList = text := by
  cases text with
  | none =>
    -- the text is written as one surrogate without its partner
    refine ⟨['\\', 'u', 'd', '8', '0', '0', '"'] ++ rest, [.unit 0xD800], rfl, ?_, rfl⟩
    have hunit : codeUnit? 'd' '8' '0' '0' = some 0xD800 := rfl
    have hread := readString_unit hunit ('"' :: rest)
    rwa [readThen, readString_quote, Option.map_some] at hread
  | some text =>
    obtain ⟨ps, hread, hjoin⟩ := exists_readString_flatMap text.toList rest
    refine ⟨text.toList.flatMap escape ++ '"' :: rest, ps, by simp [quoted], hread, ?_⟩
    rw [hjoin, Option.map_some, String.ofList_toList]

end MixAsm.Json
