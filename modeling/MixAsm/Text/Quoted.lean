import MixAsm.Text.Printable

namespace MixAsm.Text

/-!
# Quoted characters and texts

How a message shows a character or a text between quotation marks. The quotation mark itself, the
backslash and four controls are written with a backslash; any other character that is not
printable is written as its code point in braces; the rest stand as they are.
-/

/-- The lower-case hexadecimal digits of a number. -/
def hexDigits (n : Nat) : List Char := Nat.toDigits 16 n

/-- The characters that show `c` between the quotation marks `mark`. -/
def escapeChar (mark c : Char) : List Char :=
  if c = '\x00' then ['\\', '0']
  else if c = '\t' then ['\\', 't']
  else if c = '\r' then ['\\', 'r']
  else if c = '\n' then ['\\', 'n']
  else if c = '\\' ∨ c = mark then ['\\', c]
  else if isPrintable c then [c]
  else ['\\', 'u', '{'] ++ hexDigits c.toNat ++ ['}']

/-- The characters `cs` between the quotation marks `mark`. -/
def quote (mark : Char) (cs : List Char) : String :=
  String.ofList (mark :: (cs.flatMap (escapeChar mark) ++ [mark]))

/-- A character between single quotation marks. -/
def quoteChar (c : Char) : String := quote '\'' [c]

/-- A text between double quotation marks. -/
def quoteText (text : String) : String := quote '"' text.toList

end MixAsm.Text
