import MixAsm.Mnemonic
import MixAsm.Operand

namespace MixAsm

/-!
# Instructions

An opcode with the operands its category calls for, and the canonical text of the two together.

* `Instruction.operands` — the operands that are written, in order;
* `Instruction.canonical` — the one text with no spare space, zero or group.
-/

/-- An opcode together with its operands. -/
inductive Instruction
  | onlyName (op : NameOp)
  | field (op : FieldOp) (address : Address) (index : Index) (fields : FieldSpec)
  | nonField (op : NonFieldOp) (address : Address) (index : Index)
  | arg (op : ArgOp) (address : Address) (index : Index) (argument : ArgSpec)
  deriving DecidableEq, Repr

namespace Instruction

/-- The instruction's opcode. -/
def mnemonic : Instruction → Mnemonic
  | onlyName op => .onlyName op
  | field op .. => .field op
  | nonField op .. => .nonField op
  | arg op .. => .arg op

/-- The category of the instruction's opcode. -/
def category (ins : Instruction) : Category := ins.mnemonic.category

/-- The address, which only an opcode that stands alone lacks. -/
def address? : Instruction → Option Address
  | onlyName _ => none
  | field _ a .. | nonField _ a _ | arg _ a .. => some a

/-- The index, which only an opcode that stands alone lacks. -/
def index? : Instruction → Option Index
  | onlyName _ => none
  | field _ _ i _ | nonField _ _ i | arg _ _ i _ => some i

/-- The field specification of an opcode that takes one. -/
def fields? : Instruction → Option FieldSpec
  | field _ _ _ f => some f
  | _ => none

/-- The argument of an opcode that takes one. -/
def argument? : Instruction → Option ArgSpec
  | arg _ _ _ a => some a
  | _ => none

/-- The operands that are written, in the order they are written in. -/
def operands (ins : Instruction) : List Operand :=
  ins.address?.toList.map .address ++ ins.index?.toList.map .index
    ++ (ins.fields?.bind FieldSpec.explicit?).toList.map .fields
    ++ (ins.argument?.bind ArgSpec.explicit?).toList.map .argument

/-- The canonical text: the name, one space, address, comma, index and the group, if any. -/
def canonical : Instruction → String
  | onlyName op => (Mnemonic.onlyName op).name
  | field op a i f => s!"{(Mnemonic.field op).name} {a.text},{i.text}{f.text}"
  | nonField op a i => s!"{(Mnemonic.nonField op).name} {a.text},{i.text}"
  | arg op a i n => s!"{(Mnemonic.arg op).name} {a.text},{i.text}{n.text}"

end Instruction

end MixAsm
