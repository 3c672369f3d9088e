import MixAsm.Json

namespace MixAsm.Json

/-!
# Tokens of a JSON document

A document is cut into brackets, commas, colons, strings, and words and numbers between them;
blanks part tokens and are dropped.

* `readString` — the pieces of a string up to its closing quotation mark;
* `joinPieces` — the characters that the pieces stand for;
* `tokenize` — the tokens of a document.
-/

/-- A token of a JSON document. -/
inductive Token
  | openArray | closeArray | openObject | closeObject | comma | colon
  | null
  | bool (b : Bool)
  | number (n : Number)
  | string (text : Text)
  deriving DecidableEq, Repr

/-! ### Strings -/

/-- A piece of a string: a character, or a UTF-16 code unit that an escape writes. -/
inductive Piece
  | char (c : Char)
  | unit (u : Nat)
  deriving DecidableEq, Repr

/-- The value of a hexadecimal digit. -/
def hexDigit? (c : Char) : Option Nat :=
  if c.isDigit then some (c.toNat - '0'.toNat)
  else if 'a' ≤ c ∧ c ≤ 'f' then some (c.toNat - 'a'.toNat + 10)
  else if 'A' ≤ c ∧ c ≤ 'F' then some (c.toNat - 'A'.toNat + 10)
  else none

/-- The code unit that four hexadecimal digits write. -/
def codeUnit? (a b c d : Char) : Option Nat := do
  let a ← hexDigit? a
  let b ← hexDigit? b
  let c ← hexDigit? c
  let d ← hexDigit? d
  return 4096 * a + 256 * b + 16 * c + d

/-- The character that an escape of one letter writes. -/
def unescape? (c : Char) : Option Char :=
  if c = '"' ∨ c = '\\' ∨ c = '/' then some c
  else if c = 'b' then some '\x08'
  else if c = 'f' then some '\x0c'
  else if c = 'n' then some '\n'
  else if c = 'r' then some '\r'
  else if c = 't' then some '\t'
  else none

/-- The pieces of a string, up to the quotation mark that closes it, and what follows the mark.
    A control character cannot stand in a string. -/
def readString : List Char → Option (List Piece × List Char)
  | [] => none
  | c :: cs =>
    if c = '"' then some ([], cs)
    else if c = '\\' then
      match cs with
      | 'u' :: a :: b :: d :: e :: rest => do
        let unit ← codeUnit? a b d e
        let (pieces, rest) ← readString rest
        return (.unit unit :: pieces, rest)
      | e :: rest => do
        let c ← unescape? e
        let (pieces, rest) ← readString rest
        return (.char c :: pieces, rest)
      | [] => none
    else if c.toNat < 0x20 then none
    else do
      let (pieces, rest) ← readString cs
      return (.char c :: pieces, rest)

/-- The characters that the pieces of a string stand for. A high surrogate and a low one directly
    behind it stand for one character; any other surrogate stands for none. -/
def joinPieces : List Piece → Option (List Char)
  | [] => some []
  | .char c :: ps => (joinPieces ps).map (c :: ·)
  | .unit u :: ps =>
    if 0xD800 ≤ u ∧ u < 0xDC00 then
      match ps with
      | .unit v :: ps =>
        if 0xDC00 ≤ v ∧ v < 0xE000 then
          (joinPieces ps).map (Char.ofNat (0x10000 + 0x400 * (u - 0xD800) + (v - 0xDC00)) :: ·)
        else none
      | _ => none
    else if 0xDC00 ≤ u ∧ u < 0xE000 then none
    else (joinPieces ps).map (Char.ofNat u :: ·)

/-- What follows a string follows what is behind its first piece. -/
theorem readString_of_cons {p : Piece} {tail rest : List Char} {pieces : List Piece}
    (h : (do
      let (ps, r) ← readString tail
      return (p :: ps, r)) = some (pieces, rest)) :
    ∃ ps, readString tail = some (ps, rest) := by
  obtain ⟨⟨ps, r⟩, htail, hcons⟩ := Option.bind_eq_some_iff.mp h
  obtain rfl : r = rest := (Prod.mk.inj (Option.some.inj hcons)).2
  exact ⟨ps, htail⟩

/-- What follows a string is shorter than the string with it. -/
theorem length_lt_of_readString {cs rest : List Char} {pieces : List Piece}
    (h : readString cs = some (pieces, rest)) : rest.length < cs.length := by
  fun_induction readString cs generalizing pieces rest with
  | case1 => simp at h
  | case2 cs => simp_all
  | case3 a b d e tail hq ih =>
    obtain ⟨unit, -, hcons⟩ := Option.bind_eq_some_iff.mp h
    obtain ⟨ps, htail⟩ := readString_of_cons hcons
    have hlt := ih htail
    simp only [List.length_cons]
    omega
  | case4 e tail hq hu ih =>
    obtain ⟨c, -, hcons⟩ := Option.bind_eq_some_iff.mp h
    obtain ⟨ps, htail⟩ := readString_of_cons hcons
    have hlt := ih htail
    simp only [List.length_cons]
    omega
  | case5 => simp at h
  | case6 => simp at h
  | case7 c cs hq hb hc ih =>
    obtain ⟨ps, htail⟩ := readString_of_cons h
    have hlt := ih htail
    simp only [List.length_cons]
    omega

/-! ### Tokens -/

/-- The blanks between tokens. -/
def isSpace (c : Char) : Bool := c = ' ' || c = '\n' || c = '\t' || c = '\r'

/-- The token that is one character. -/
def mark? (c : Char) : Option Token :=
  if c = '[' then some .openArray
  else if c = ']' then some .closeArray
  else if c = '{' then some .openObject
  else if c = '}' then some .closeObject
  else if c = ',' then some .comma
  else if c = ':' then some .colon
  else none

/-- Can the character stand in a word or a number, behind the first? -/
def continuesAtom (c : Char) : Bool := c.isAlphanum || c = '+' || c = '-' || c = '.'

/-- The token that a word or a number is. -/
def atom? (cs : List Char) : Option Token :=
  if cs = ['n', 'u', 'l', 'l'] then some .null
  else if cs = ['t', 'r', 'u', 'e'] then some (.bool true)
  else if cs = ['f', 'a', 'l', 's', 'e'] then some (.bool false)
  else (Number.ofLiteral? cs).map .number

/-- The tokens of a document. -/
def tokenize (cs : List Char) : Option (List Token) :=
  match cs with
  | [] => some []
  | c :: rest =>
    if isSpace c then tokenize rest
    else
      match mark? c with
      | some t => (tokenize rest).map (t :: ·)
      | none =>
        if c = '"' then
          match _h : readString rest with
          | some (pieces, rest) =>
            (tokenize rest).map (.string ((joinPieces pieces).map String.ofList) :: ·)
          | none => none
        else
          match atom? (c :: rest.takeWhile continuesAtom) with
          | some t => (tokenize (rest.dropWhile continuesAtom)).map (t :: ·)
          | none => none
termination_by cs.length
decreasing_by
  · simp
  · simp
  · have := length_lt_of_readString _h
    simp only [List.length_cons]
    omega
  · have := (List.dropWhile_sublist continuesAtom (l := rest)).length_le
    simp only [List.length_cons]
    omega

end MixAsm.Json
