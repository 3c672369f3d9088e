import MixAsm.Json.Decode
import MixAsm.Mnemonic

namespace MixAsm

/-!
# Opcodes in JSON

An opcode is a variant named for what it does; what it is applied to, such as a register, is the
payload. A mnemonic is its opcode under the name of the category.

Each type has `toJson` and `ofJson?`, the value of an opcode and the opcode that a value gives.
-/

open Json (Place)

namespace Register

/-- The name of the register in a document. -/
def key : Register → String
  | a => "A"
  | x => "X"
  | i1 => "I1"
  | i2 => "I2"
  | i3 => "I3"
  | i4 => "I4"
  | i5 => "I5"

/-- The register as a value. -/
def toJson (r : Register) : Json := .str r.key

/-- The register that a value gives. -/
def ofJson? (place : Place) (v : Json) : Option Register := Json.enumerated? place all key v

end Register

namespace StoreSource

/-- The source of a store as a value. -/
def toJson : StoreSource → Json
  | register r => .record [("Register", r.toJson)]
  | jump => .str "J"
  | zero => .str "Z"

/-- The source of a store that a value gives. -/
def ofJson? (place : Place) (v : Json) : Option StoreSource := do
  match ← v.variant? with
  | ("Register", some payload) => (Register.ofJson? place payload).map register
  | ("J", payload) => if Json.isNoPayload place payload then some jump else none
  | ("Z", payload) => if Json.isNoPayload place payload then some zero else none
  | _ => none

end StoreSource

namespace SignTest

/-- The name of the sign test in a document. -/
def key : SignTest → String
  | negative => "Negative"
  | zero => "Zero"
  | positive => "Positive"
  | nonNegative => "NonNegative"
  | nonZero => "NonZero"
  | nonPositive => "NonPositive"

/-- The sign test as a value. -/
def toJson (t : SignTest) : Json := .str t.key

/-- The sign test that a value gives. -/
def ofJson? (place : Place) (v : Json) : Option SignTest := Json.enumerated? place all key v

end SignTest

namespace JumpCondition

/-- The name of the condition in a document. -/
def key : JumpCondition → String
  | always => "Always"
  | saveJ => "SaveJ"
  | overflow => "Overflow"
  | noOverflow => "NoOverflow"
  | less => "Less"
  | lessOrEqual => "LessOrEqual"
  | greater => "Greater"
  | greaterOrEqual => "GreaterOrEqual"
  | equal => "Equal"
  | notEqual => "NotEqual"
  | register .. => "Register"

/-- The condition as a value. -/
def toJson : JumpCondition → Json
  | register r t => .record [("Register", .array [r.toJson, t.toJson])]
  | c => .str c.key

/-- The condition that a value gives. -/
def ofJson? (place : Place) (v : Json) : Option JumpCondition := do
  match ← v.variant? with
  | ("Register", some (.array [r, t])) =>
    return register (← Register.ofJson? place r) (← SignTest.ofJson? place t)
  | _ => Json.enumerated? place plain key v

end JumpCondition

namespace Shift

/-- The name of the shift in a document. -/
def key : Shift → String
  | sla => "Sla"
  | sra => "Sra"
  | slax => "Slax"
  | srax => "Srax"
  | slc => "Slc"
  | src => "Src"

/-- The shift as a value. -/
def toJson (s : Shift) : Json := .str s.key

/-- The shift that a value gives. -/
def ofJson? (place : Place) (v : Json) : Option Shift := Json.enumerated? place all key v

end Shift

namespace NameOp

/-- The name of the opcode in a document. -/
def key : NameOp → String
  | nop => "Nop"
  | halt => "Halt"
  | num => "Num"
  | char => "Char"

/-- The opcode as a value. -/
def toJson (op : NameOp) : Json := .str op.key

/-- The opcode that a value gives. -/
def ofJson? (place : Place) (v : Json) : Option NameOp := Json.enumerated? place all key v

end NameOp

/-- A register and whether its value is negated, as a value. -/
def signedRegisterToJson (r : Register) (negate : Bool) : Json :=
  .record [("register", r.toJson), ("negate", .bool negate)]

/-- The register and whether its value is negated that a value gives. -/
def signedRegisterOfJson? (place : Place) (v : Json) : Option (Register × Bool) := do
  match ← Json.allFields? ["register", "negate"] v with
  | [r, negate] => return (← Register.ofJson? place r, ← negate.toBool?)
  | _ => none

namespace FieldOp

/-- The opcodes that are applied to nothing. -/
def plain : List FieldOp := [add, sub, mul, div]

/-- The name of the opcode in a document. -/
def key : FieldOp → String
  | load .. => "Load"
  | store _ => "Store"
  | add => "Add"
  | sub => "Sub"
  | mul => "Mul"
  | div => "Div"
  | compare _ => "Compare"

/-- The opcode as a value. -/
def toJson (op : FieldOp) : Json :=
  match op with
  | load r negate => .record [(op.key, signedRegisterToJson r negate)]
  | store s => .record [(op.key, s.toJson)]
  | compare r => .record [(op.key, r.toJson)]
  | _ => .str op.key

/-- The opcode that a value gives. -/
def ofJson? (place : Place) (v : Json) : Option FieldOp := do
  match ← v.variant? with
  | ("Load", some payload) =>
    (signedRegisterOfJson? place payload).map fun (r, negate) => load r negate
  | ("Store", some payload) => (StoreSource.ofJson? place payload).map store
  | ("Compare", some payload) => (Register.ofJson? place payload).map compare
  | _ => Json.enumerated? place plain key v

end FieldOp

namespace NonFieldOp

/-- The name of the opcode in a document. -/
def key : NonFieldOp → String
  | jump _ => "Jump"
  | enter .. => "Enter"
  | increment _ => "Increment"
  | decrement _ => "Decrement"
  | shift _ => "Shift"

/-- The opcode as a value. -/
def toJson (op : NonFieldOp) : Json :=
  .record [(op.key, match op with
    | jump c => c.toJson
    | enter r negate => signedRegisterToJson r negate
    | increment r | decrement r => r.toJson
    | shift s => s.toJson)]

/-- The opcode that a value gives. -/
def ofJson? (place : Place) (v : Json) : Option NonFieldOp := do
  match ← v.variant? with
  | ("Jump", some payload) => (JumpCondition.ofJson? place payload).map jump
  | ("Enter", some payload) =>
    (signedRegisterOfJson? place payload).map fun (r, negate) => enter r negate
  | ("Increment", some payload) => (Register.ofJson? place payload).map increment
  | ("Decrement", some payload) => (Register.ofJson? place payload).map decrement
  | ("Shift", some payload) => (Shift.ofJson? place payload).map shift
  | _ => none

end NonFieldOp

namespace ArgOp

/-- The name of the opcode in a document. -/
def key : ArgOp → String
  | input => "In"
  | output => "Out"
  | ioControl => "Ioc"
  | jumpReady => "Jred"
  | jumpBusy => "Jbus"
  | move => "Move"

/-- The opcode as a value. -/
def toJson (op : ArgOp) : Json := .str op.key

/-- The opcode that a value gives. -/
def ofJson? (place : Place) (v : Json) : Option ArgOp := Json.enumerated? place all key v

end ArgOp

namespace Category

/-- The name of the category in a document. -/
def key : Category → String
  | onlyName => "only_name"
  | field => "field"
  | nonField => "non_field"
  | arg => "arg"

/-- The category as a value. -/
def toJson (c : Category) : Json := .str c.key

/-- The category that a value gives. -/
def ofJson? (place : Place) (v : Json) : Option Category := Json.enumerated? place all key v

end Category

namespace Mnemonic

/-- The opcode as a value, under the name of its category. -/
def toJson : Mnemonic → Json
  | onlyName op => .record [("OnlyName", op.toJson)]
  | field op => .record [("Field", op.toJson)]
  | nonField op => .record [("NonField", op.toJson)]
  | arg op => .record [("Arg", op.toJson)]

/-- The opcode that a value gives. -/
def ofJson? (v : Json) : Option Mnemonic := do
  match ← v.variant? with
  | ("OnlyName", some payload) => (NameOp.ofJson? .document payload).map onlyName
  | ("Field", some payload) => (FieldOp.ofJson? .document payload).map field
  | ("NonField", some payload) => (NonFieldOp.ofJson? .document payload).map nonField
  | ("Arg", some payload) => (ArgOp.ofJson? .document payload).map arg
  | _ => none

end Mnemonic

end MixAsm
