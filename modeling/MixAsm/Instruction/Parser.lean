import MixAsm.Instruction
import MixAsm.Operand.Literal
import MixAsm.Token.Lexer

namespace MixAsm

/-!
# Reading an instruction from a line

A line is cut into tokens, and the tokens are read from left to right: the opcode, then for all
but the opcodes that stand alone one space, the address, a comma and the index, then the group in
parentheses that the opcode's category allows. Each step takes tokens from the front and answers
with what it read and the tokens left, or blames the first token that does not fit.

The bounds of address, index and argument are checked as soon as the step that reads them is done,
those of a field specification once its group is closed.

* `Mnemonic.classify` — the opcode a word names;
* `Instruction.ofTokens` — the instruction that a list of tokens writes;
* `Instruction.parse` — the instruction that a line writes.
-/

/-- The opcode that the word in a column names. -/
def Mnemonic.classify (word : String) (column : Nat) : Except ParseError Mnemonic :=
  match ofName? word with
  | some m => .ok m
  | none => .error ⟨column, .unknownMnemonic word⟩

namespace Token

/-- The lexeme at the front. -/
def front? (ts : List Token) : Option Lexeme := ts.head?.map lexeme

/-- The column of the front token, or the column behind the line where no token is left. -/
def columnOf (lineEnd : Nat) (ts : List Token) : Nat := (ts.head?.map column).getD lineEnd

/-- What stands at the front. -/
def found (ts : List Token) : Found := (front? ts).elim .endOfLine .lexeme

/-- The error that the front does not fit. -/
def malformed (lineEnd : Nat) (expected : Expected) (ts : List Token) : ParseError :=
  ⟨columnOf lineEnd ts, .malformed expected (found ts)⟩

/-! ### Single steps -/

/-- Take a word, with its column. -/
def takeWord (lineEnd : Nat) (expected : Expected) :
    List Token → Except ParseError ((String × Nat) × List Token)
  | t :: ts =>
    match t.lexeme with
    | .word text => .ok ((text, t.column), ts)
    | _ => .error (malformed lineEnd expected (t :: ts))
  | [] => .error (malformed lineEnd expected [])

/-- Take a number, with its column. -/
def takeNumber (lineEnd : Nat) (expected : Expected) :
    List Token → Except ParseError ((String × Nat) × List Token)
  | t :: ts =>
    match t.lexeme with
    | .number text => .ok ((text, t.column), ts)
    | _ => .error (malformed lineEnd expected (t :: ts))
  | [] => .error (malformed lineEnd expected [])

/-- Take the one token with the lexeme `l`. -/
def takeLexeme (lineEnd : Nat) (l : Lexeme) (expected : Expected) :
    List Token → Except ParseError (List Token)
  | t :: ts =>
    if t.lexeme = l then .ok ts else .error (malformed lineEnd expected (t :: ts))
  | [] => .error (malformed lineEnd expected [])

/-- Take the spaces before the operands: one only, unless spaces collapse. -/
def takeGap (cfg : Config) (lineEnd : Nat) : List Token → Except ParseError (List Token)
  | t :: ts =>
    if t.lexeme = .space then
      if cfg.collapseSpaces || t.width ≤ 1 then .ok ts
      else .error ⟨t.column, .malformed .singleSpace (.spaces t.width)⟩
    else .error (malformed lineEnd .space (t :: ts))
  | [] => .error (malformed lineEnd .space [])

/-! ### Operands -/

/-- Take the spaces, the address, the comma and the index. -/
def takeAddressIndex (cfg : Config) (lineEnd : Nat) (ts : List Token) :
    Except ParseError ((Address × Index) × List Token) := do
  let ts ← takeGap cfg lineEnd ts
  let ((text, column), ts) ← takeNumber lineEnd .address ts
  let address ← Address.parse text column
  let ts ← takeLexeme lineEnd .comma .comma ts
  let ((text, column), ts) ← takeNumber lineEnd .index ts
  let index ← Index.parse text column
  return ((address, index), ts)

/-- Take the two bounds of a field, the colon between them and the parenthesis behind them. -/
def takeFields (lineEnd : Nat) (ts : List Token) : Except ParseError (Fields × List Token) := do
  let ((left, leftColumn), ts) ← takeNumber lineEnd .fieldStart ts
  let ts ← takeLexeme lineEnd .colon .fieldColon ts
  let ((right, rightColumn), ts) ← takeNumber lineEnd .fieldEnd ts
  let ts ← takeLexeme lineEnd .rightParen .fieldClose ts
  let fields ← Fields.parse left leftColumn right rightColumn
  return (fields, ts)

/-- Take an argument and the parenthesis behind it. -/
def takeArgument (lineEnd : Nat) (ts : List Token) :
    Except ParseError (Argument × List Token) := do
  let ((text, column), ts) ← takeNumber lineEnd .argument ts
  let ts ← takeLexeme lineEnd .rightParen .argumentClose ts
  let argument ← Argument.parse text column
  return (argument, ts)

/-- Do the tokens behind an opening parenthesis start with a number and then `l`? -/
def startsNumberThen (l : Lexeme) : List Token → Bool
  | ⟨.number _, _, _⟩ :: t :: _ => t.lexeme = l
  | _ => false

/-- Take the field specification of the opcode `m`, if one is written. A group of one number is
    an argument, which the opcode does not take. -/
def takeFieldSpec (lineEnd : Nat) (m : Mnemonic) :
    List Token → Except ParseError (FieldSpec × List Token)
  | t :: ts =>
    if t.lexeme ≠ .leftParen then .ok (.default, t :: ts)
    else if startsNumberThen .rightParen ts then .error ⟨t.column, .unexpected m .argumentGroup⟩
    else (takeFields lineEnd ts).map fun (fields, rest) => (.explicit fields, rest)
  | [] => .ok (.default, [])

/-- Take the argument of the opcode `m`, if one is written. A group with a colon is a field
    specification, which the opcode does not take. -/
def takeArgSpec (lineEnd : Nat) (m : Mnemonic) :
    List Token → Except ParseError (ArgSpec × List Token)
  | t :: ts =>
    if t.lexeme ≠ .leftParen then .ok (.default, t :: ts)
    else if startsNumberThen .colon ts then .error ⟨t.column, .unexpected m .fieldGroup⟩
    else (takeArgument lineEnd ts).map fun (argument, rest) => (.explicit argument, rest)
  | [] => .ok (.default, [])

/-- The tokens without a space at the end and then without one at the front. -/
def trimSpaces (ts : List Token) : List Token :=
  let ts := if (ts.getLast?.map lexeme) = some .space then ts.dropLast else ts
  if front? ts = some .space then ts.tail else ts

end Token

namespace Instruction

open Token

/-! ### Instructions -/

/-- Take what the category of the opcode `m` calls for. -/
def takeOperands (cfg : Config) (lineEnd : Nat) (ts : List Token) :
    Mnemonic → Except ParseError (Instruction × List Token)
  | .onlyName op => .ok (onlyName op, ts)
  | .field op => do
    let ((address, index), ts) ← takeAddressIndex cfg lineEnd ts
    let (fields, ts) ← takeFieldSpec lineEnd (.field op) ts
    return (field op address index fields, ts)
  | .nonField op => do
    let ((address, index), ts) ← takeAddressIndex cfg lineEnd ts
    return (nonField op address index, ts)
  | .arg op => do
    let ((address, index), ts) ← takeAddressIndex cfg lineEnd ts
    let (argument, ts) ← takeArgSpec lineEnd (.arg op) ts
    return (arg op address index argument, ts)

/-- Nothing may be left behind the operands of the opcode `m`. -/
def finish (m : Mnemonic) (ins : Instruction) : List Token → Except ParseError Instruction
  | [] => .ok ins
  | t :: _ => .error ⟨t.column, .unexpected m (.lexeme t.lexeme)⟩

/-- The instruction that the tokens of a line write, where `lineEnd` is the column behind it. -/
def ofTokens (cfg : Config) (lineEnd : Nat) (ts : List Token) :
    Except ParseError Instruction := do
  let ((word, column), ts) ← takeWord lineEnd .mnemonic ts
  let m ← Mnemonic.classify word column
  let (ins, ts) ← takeOperands cfg lineEnd ts m
  finish m ins ts

/-- The instruction that a line writes, or why it writes none. -/
def parse (cfg : Config) (line : String) : Except ParseError Instruction := do
  let ts ← tokenize cfg line
  ofTokens cfg (line.length + 1) (if cfg.collapseSpaces then trimSpaces ts else ts)

end Instruction

end MixAsm
