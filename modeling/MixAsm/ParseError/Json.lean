import MixAsm.Json.Decode
import MixAsm.ParseError

namespace MixAsm.ErrorKind

/-!
# Kinds of error in JSON

A kind of error is its name.
-/

/-- The name of the kind in a document. -/
def key : ErrorKind → String
  | lexical => "lex"
  | unknownMnemonic => "unknown_mnemonic"
  | malformedOperand => "malformed_operand"
  | operandRange => "operand_range"
  | trailingOperand => "unexpected_trailing_operand"

/-- The kind as a value. -/
def toJson (k : ErrorKind) : Json := .str k.key

/-- The kind that a value gives. -/
def ofJson? (v : Json) : Option ErrorKind := Json.enumerated? .document all key v

end MixAsm.ErrorKind
