import MixAsm.Mnemonic
import MixAsm.Operand
import MixAsm.Token
import MixAsm.Text.Quoted

namespace MixAsm

/-!
# Errors of a line

Why a line is not an instruction, and the column that the blame falls on.

* `Fault` — the five causes;
* `ParseError.message` — the sentence that reports an error;
* `LineError` — an error together with the number of its line.
-/

/-- What a reader of lines was about to read. -/
inductive Expected
  | mnemonic | space | singleSpace | address | comma | index
  | fieldStart | fieldColon | fieldEnd | fieldClose
  | argument | argumentClose
  deriving DecidableEq, Repr

/-- How a message names what was to come. -/
def Expected.describe : Expected → String
  | mnemonic => "mnemonic"
  | space => "space before operands"
  | singleSpace => "single space before operands"
  | address => "address"
  | comma => "`,` between address and index"
  | index => "index"
  | fieldStart => "field start"
  | fieldColon => "`:` in field spec"
  | fieldEnd => "field end"
  | fieldClose => "`)` closing field spec"
  | argument => "argument"
  | argumentClose => "`)` closing argument"

/-- What stands in the place of what was to come. -/
inductive Found
  | lexeme (l : Lexeme)
  | spaces (count : Nat)
  | endOfLine
  deriving DecidableEq, Repr

/-- How a message names what stands there instead. -/
def Found.describe : Found → String
  | lexeme l => l.describe
  | spaces n => s!"{n} spaces"
  | endOfLine => "end of line"

/-- What follows an instruction that is complete, or a group that its opcode does not take. -/
inductive Leftover
  | lexeme (l : Lexeme)
  | argumentGroup
  | fieldGroup
  deriving DecidableEq, Repr

/-- How a message names what is left over. -/
def Leftover.describe : Leftover → String
  | lexeme l => l.describe
  | argumentGroup => "argument `(n)`"
  | fieldGroup => "field spec `(L:R)`"

/-- Why a line is not an instruction. -/
inductive Fault
  /-- A character that no token has. -/
  | illegalCharacter (c : Char)
  /-- A word that names no opcode. -/
  | unknownMnemonic (word : String)
  /-- Something else than what had to come. -/
  | malformed (expected : Expected) (found : Found)
  /-- A literal that its operand cannot take. -/
  | outOfRange (operand : OperandKind) (literal : String)
  /-- Something after all that the opcode takes. -/
  | unexpected (after : Mnemonic) (leftover : Leftover)
  deriving DecidableEq, Repr

/-- The five kinds of fault, without their particulars. -/
inductive ErrorKind
  | lexical | unknownMnemonic | malformedOperand | operandRange | trailingOperand
  deriving DecidableEq, Repr

/-- Every kind of fault. -/
def ErrorKind.all : List ErrorKind :=
  [lexical, unknownMnemonic, malformedOperand, operandRange, trailingOperand]

/-- The kind of a fault. -/
def Fault.kind : Fault → ErrorKind
  | illegalCharacter _ => .lexical
  | unknownMnemonic _ => .unknownMnemonic
  | malformed .. => .malformedOperand
  | outOfRange .. => .operandRange
  | unexpected .. => .trailingOperand

/-- A fault and the column it is found in. -/
structure ParseError where
  column : Nat
  fault : Fault
  deriving DecidableEq, Repr

namespace ParseError

/-- The kind of the error. -/
def kind (e : ParseError) : ErrorKind := e.fault.kind

/-- The sentence that reports the error. -/
def message (e : ParseError) : String :=
  match e.fault with
  | .illegalCharacter c => s!"unrecognized character {Text.quoteChar c} at column {e.column}"
  | .unknownMnemonic word => s!"unknown mnemonic `{word}` at column {e.column}"
  | .malformed expected found =>
    s!"malformed operand at column {e.column}: " ++
      s!"expected {expected.describe}, found {found.describe}"
  | .outOfRange operand literal =>
    s!"{operand.noun} {literal} at column {e.column} " ++
      s!"is out of range {operand.min}..={operand.max}"
  | .unexpected after leftover =>
    s!"unexpected {leftover.describe} after `{after.name}` at column {e.column}"

end ParseError

/-- An error and the number of the line it is in. -/
structure LineError where
  line : Nat
  error : ParseError
  deriving DecidableEq, Repr

/-- The sentence that reports the error with its line. -/
def LineError.message (e : LineError) : String := s!"line {e.line}: {e.error.message}"

end MixAsm
