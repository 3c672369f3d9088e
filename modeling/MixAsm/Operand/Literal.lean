import MixAsm.ParseError
import MixAsm.Text.Decimal

namespace MixAsm

/-!
# Operands from literals

Each kind of operand is read from a literal, a run of digits behind at most one plus sign. A
literal of any other form, or with a value out of the kind's bounds, is refused as it stands and
blamed on its column.
-/

/-- The value of a literal that `accept` takes, or the error of an operand out of range. -/
def OperandKind.parse {α : Type} (kind : OperandKind) (accept : Nat → Option α) (text : String)
    (column : Nat) : Except ParseError α :=
  match (Text.literal? text.toList).bind accept with
  | some v => .ok v
  | none => .error ⟨column, .outOfRange kind text⟩

/-- The address that a literal writes. -/
def Address.parse (text : String) (column : Nat) : Except ParseError Address :=
  OperandKind.address.parse Address.ofNat? text column

/-- The index that a literal writes. -/
def Index.parse (text : String) (column : Nat) : Except ParseError Index :=
  OperandKind.index.parse Index.ofNat? text column

/-- The argument that a literal writes. -/
def Argument.parse (text : String) (column : Nat) : Except ParseError Argument :=
  OperandKind.argument.parse (fun n => (word32? n).map .mk) text column

/-- The fields that two literals write. The left one is blamed first. -/
def Fields.parse (left : String) (leftColumn : Nat) (right : String) (rightColumn : Nat) :
    Except ParseError Fields := do
  let l ← OperandKind.fields.parse word32? left leftColumn
  let r ← OperandKind.fields.parse word32? right rightColumn
  return ⟨l, r⟩

end MixAsm
