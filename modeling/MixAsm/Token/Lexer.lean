import MixAsm.ParseError

namespace MixAsm

/-!
# Cutting a line into tokens

The first character of a token decides what the token is. The token takes that character and the
longest run after it of characters that can continue it: letters and digits after a letter, digits
after a digit, spaces after a space, and nothing after a punctuation mark.

* `Token.scan` — the tokens of a list of characters, from a position of the line on;
* `Token.tokenize` — the tokens of a line, or the first character that starts none.
-/

/-- What a character starts, if it starts a token. -/
inductive CharClass
  | letter
  | digit
  | space
  | mark (l : Lexeme)
  deriving DecidableEq, Repr

namespace CharClass

/-- The class of a character in capitals. -/
def of? (c : Char) : Option CharClass :=
  if c = '(' then some (mark .leftParen)
  else if c = ')' then some (mark .rightParen)
  else if c = ':' then some (mark .colon)
  else if c = ',' then some (mark .comma)
  else if c = ' ' then some space
  else if c.isUpper then some letter
  else if c.isDigit then some digit
  else none

/-- Can the character stand in a token of the class, behind the first? -/
def continues (cfg : Config) : CharClass → Char → Bool
  | letter, c => (cfg.fold c).isUpper || (cfg.fold c).isDigit
  | digit, c => c.isDigit
  | space, c => c = ' '
  | mark _, _ => false

/-- What the token made of the characters `run` is. -/
def lexeme (cfg : Config) (run : List Char) : CharClass → Lexeme
  | letter => .word (String.ofList (run.map cfg.fold))
  | digit => .number (String.ofList run)
  | space => .space
  | mark l => l

end CharClass

namespace Token

/-- What is left when the characters at the front that satisfy `p` are dropped is not longer. -/
theorem length_dropWhile_le (p : Char → Bool) (cs : List Char) :
    (cs.dropWhile p).length ≤ cs.length :=
  (List.dropWhile_sublist p).length_le

/-- The tokens of `cs`, which starts at the position `start` of its line. -/
def scan (cfg : Config) (start : Nat) (cs : List Char) : Except ParseError (List Token) :=
  match cs with
  | [] => .ok []
  | c :: rest =>
    match CharClass.of? (cfg.fold c) with
    | none => .error ⟨start + 1, .illegalCharacter c⟩
    | some cls =>
      let run := rest.takeWhile (cls.continues cfg)
      let stop := start + 1 + run.length
      (scan cfg stop (rest.dropWhile (cls.continues cfg))).map
        (⟨cls.lexeme cfg (c :: run), start, stop⟩ :: ·)
termination_by cs.length
decreasing_by
  have := length_dropWhile_le (cls.continues cfg) rest
  simp only [List.length_cons]
  omega

/-- The tokens of a line, or the first character that no token has. -/
def tokenize (cfg : Config) (line : String) : Except ParseError (List Token) :=
  scan cfg 0 line.toList

end Token

end MixAsm
