import MixAsm.Json

namespace MixAsm.Json

/-!
# Writing JSON

A document is written without any space, or laid out with two spaces for each level, one item or
member a line; an empty array or object stays closed up. In a string the quotation mark, the
backslash and the control characters are escaped, and nothing else is.

* `compact` — the document without spaces;
* `pretty` — the document laid out.
-/

/-- The characters that write `c` inside a string. -/
def escape (c : Char) : List Char :=
  if c = '"' then ['\\', '"']
  else if c = '\\' then ['\\', '\\']
  else if c = '\x08' then ['\\', 'b']
  else if c = '\x0c' then ['\\', 'f']
  else if c = '\n' then ['\\', 'n']
  else if c = '\r' then ['\\', 'r']
  else if c = '\t' then ['\\', 't']
  else if c.toNat < 0x20 then
    ['\\', 'u', '0', '0', (c.toNat / 16).digitChar, (c.toNat % 16).digitChar]
  else [c]

/-- A string in quotation marks; one surrogate stands for any text that is not well-formed. -/
def quoted : Text → List Char
  | some text => '"' :: (text.toList.flatMap escape ++ ['"'])
  | none => ['"', '\\', 'u', 'd', '8', '0', '0', '"']

/-- How a document is laid out: closed up, or indented by a number of levels. -/
abbrev Level := Option Nat

namespace Level

/-- The level of what stands inside an array or object. -/
def inner (level : Level) : Level := level.map (· + 1)

/-- What precedes an item, a member or a closing bracket. -/
def lineBreak : Level → List Char
  | none => []
  | some n => '\n' :: List.replicate (2 * n) ' '

/-- What stands between a key and its value. -/
def colon : Level → List Char
  | none => [':']
  | some _ => [':', ' ']

end Level

mutual

/-- The characters of a value at a level. -/
def write (level : Level) : Json → List Char
  | null => ['n', 'u', 'l', 'l']
  | bool true => ['t', 'r', 'u', 'e']
  | bool false => ['f', 'a', 'l', 's', 'e']
  | number n => n.text
  | string text => quoted text
  | array [] => ['[', ']']
  | array (v :: vs) =>
    '[' :: (level.inner.lineBreak ++ write level.inner v ++ writeItems level vs
      ++ level.lineBreak ++ [']'])
  | object [] => ['{', '}']
  | object ((key, v) :: ms) =>
    '{' :: (level.inner.lineBreak ++ quoted key ++ level.colon ++ write level.inner v
      ++ writeMembers level ms ++ level.lineBreak ++ ['}'])

/-- The characters of the items behind the first. -/
def writeItems (level : Level) : List Json → List Char
  | [] => []
  | v :: vs =>
    ',' :: (level.inner.lineBreak ++ write level.inner v ++ writeItems level vs)

/-- The characters of the members behind the first. -/
def writeMembers (level : Level) : List (Text × Json) → List Char
  | [] => []
  | (key, v) :: ms =>
    ',' :: (level.inner.lineBreak ++ quoted key ++ level.colon ++ write level.inner v
      ++ writeMembers level ms)

end

/-- The document without spaces. -/
def compact (v : Json) : String := String.ofList (write none v)

/-- The document laid out with two spaces for each level. -/
def pretty (v : Json) : String := String.ofList (write (some 0) v)

end MixAsm.Json
