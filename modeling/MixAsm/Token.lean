import MixAsm.Config

namespace MixAsm

/-!
# Tokens

The pieces that a line is cut into: words, numbers, runs of spaces and four punctuation marks,
each with its place in the line.
-/

/-- What a token is, and the text of a word or a number. -/
inductive Lexeme
  | word (text : String)
  | number (text : String)
  | leftParen | rightParen | colon | comma
  | space
  deriving DecidableEq, Repr

/-- How a message shows a token. -/
def Lexeme.describe : Lexeme → String
  | word text => s!"`{text}`"
  | number text => s!"number `{text}`"
  | leftParen => "`(`"
  | rightParen => "`)`"
  | colon => "`:`"
  | comma => "`,`"
  | space => "space"

/-- A piece of a line, from the position `start` up to and without the position `stop`. -/
structure Token where
  lexeme : Lexeme
  start : Nat
  stop : Nat
  deriving DecidableEq, Repr

namespace Token

/-- The column of the token's first character; the first column of a line is 1. -/
def column (t : Token) : Nat := t.start + 1

/-- The number of characters of the token. -/
def width (t : Token) : Nat := t.stop - t.start

end Token

end MixAsm
