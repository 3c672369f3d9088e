import MixAsm.Mnemonic.Json
import MixAsm.Proofs.Json.Plain

namespace MixAsm

/-!
# Opcodes are read back from JSON

Every opcode, and all that an opcode is applied to, is read from its value in JSON, whether the
value stands in a document of its own or inside an instruction. The value is a plain one.

Each type has `ofJson?_toJson` and `plain_toJson`.
-/

open Json (Place Plain)

variable {depth : Nat} (place : Place)

/-! ### What opcodes are applied to -/

@[simp] theorem Register.ofJson?_toJson (r : Register) : ofJson? place r.toJson = some r := by
  cases r <;> rfl

theorem Register.plain_toJson (r : Register) : Plain depth r.toJson := .str r.key

@[simp] theorem SignTest.ofJson?_toJson (t : SignTest) : ofJson? place t.toJson = some t := by
  cases t <;> rfl

theorem SignTest.plain_toJson (t : SignTest) : Plain depth t.toJson := .str t.key

@[simp] theorem Shift.ofJson?_toJson (s : Shift) : ofJson? place s.toJson = some s := by
  cases s <;> rfl

theorem Shift.plain_toJson (s : Shift) : Plain depth s.toJson := .str s.key

@[simp] theorem StoreSource.ofJson?_toJson (s : StoreSource) :
    ofJson? place s.toJson = some s := by
  cases s with
  | register r =>
    show (Register.ofJson? place r.toJson).map register = some (register r)
    simp
  | jump => rfl
  | zero => rfl

theorem StoreSource.plain_toJson (s : StoreSource) : Plain (depth + 1) s.toJson := by
  cases s with
  | register r =>
    apply Plain.record
    simpa using r.plain_toJson
  | jump => exact .str _
  | zero => exact .str _

@[simp] theorem JumpCondition.ofJson?_toJson (c : JumpCondition) :
    ofJson? place c.toJson = some c := by
  cases c with
  | register r t =>
    show ((Register.ofJson? place r.toJson).bind fun r =>
      (SignTest.ofJson? place t.toJson).bind fun t => some (register r t)) = some (register r t)
    simp
  | _ => rfl

theorem JumpCondition.plain_toJson (c : JumpCondition) : Plain (depth + 2) c.toJson := by
  cases c with
  | register r t =>
    apply Plain.record
    rw [List.forall_mem_singleton]
    apply Plain.array
    simpa using ⟨r.plain_toJson, t.plain_toJson⟩
  | _ => exact .str _

@[simp] theorem signedRegisterOfJson?_toJson (r : Register) (negate : Bool) :
    signedRegisterOfJson? place (signedRegisterToJson r negate) = some (r, negate) := by
  show ((Register.ofJson? place r.toJson).bind fun r => some (r, negate)) = some (r, negate)
  simp

theorem plain_signedRegisterToJson (r : Register) (negate : Bool) :
    Plain (depth + 1) (signedRegisterToJson r negate) := by
  apply Plain.record
  simpa using ⟨r.plain_toJson, .bool negate⟩

/-! ### Opcodes -/

@[simp] theorem NameOp.ofJson?_toJson (op : NameOp) : ofJson? place op.toJson = some op := by
  cases op <;> rfl

theorem NameOp.plain_toJson (op : NameOp) : Plain depth op.toJson := .str op.key

@[simp] theorem FieldOp.ofJson?_toJson (op : FieldOp) : ofJson? place op.toJson = some op := by
  cases op with
  | load r negate =>
    show ((signedRegisterOfJson? place (signedRegisterToJson r negate)).map
      fun p => load p.1 p.2) = some (load r negate)
    simp
  | store s =>
    show (StoreSource.ofJson? place s.toJson).map store = some (store s)
    simp
  | compare r =>
    show (Register.ofJson? place r.toJson).map compare = some (compare r)
    simp
  | _ => rfl

theorem FieldOp.plain_toJson (op : FieldOp) : Plain (depth + 2) op.toJson := by
  cases op with
  | load r negate =>
    apply Plain.record
    simpa using plain_signedRegisterToJson r negate
  | store s =>
    apply Plain.record
    simpa using s.plain_toJson
  | compare r =>
    apply Plain.record
    simpa using r.plain_toJson
  | _ => exact .str _

@[simp] theorem NonFieldOp.ofJson?_toJson (op : NonFieldOp) :
    ofJson? place op.toJson = some op := by
  cases op with
  | jump c =>
    show (JumpCondition.ofJson? place c.toJson).map jump = some (jump c)
    simp
  | enter r negate =>
    show ((signedRegisterOfJson? place (signedRegisterToJson r negate)).map
      fun p => enter p.1 p.2) = some (enter r negate)
    simp
  | increment r =>
    show (Register.ofJson? place r.toJson).map increment = some (increment r)
    simp
  | decrement r =>
    show (Register.ofJson? place r.toJson).map decrement = some (decrement r)
    simp
  | shift s =>
    show (Shift.ofJson? place s.toJson).map shift = some (shift s)
    simp

theorem NonFieldOp.plain_toJson (op : NonFieldOp) : Plain (depth + 3) op.toJson := by
  apply Plain.record
  rw [List.forall_mem_singleton]
  cases op with
  | jump c => exact c.plain_toJson
  | enter r negate => exact plain_signedRegisterToJson r negate
  | increment r => exact r.plain_toJson
  | decrement r => exact r.plain_toJson
  | shift s => exact s.plain_toJson

@[simp] theorem ArgOp.ofJson?_toJson (op : ArgOp) : ofJson? place op.toJson = some op := by
  cases op <;> rfl

theorem ArgOp.plain_toJson (op : ArgOp) : Plain depth op.toJson := .str op.key

theorem Category.plain_toJson (c : Category) : Plain depth c.toJson := .str c.key

end MixAsm
