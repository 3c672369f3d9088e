import MixAsm.Instruction.Json
import MixAsm.Proofs.Mnemonic.Json
import MixAsm.Proofs.Operand.Json

namespace MixAsm.Instruction

/-!
# Instructions are read back from JSON

An instruction is read from the object that it is written as: the object is plain, its category is
found, and its other members are the ones that belong to the category.

* `tagged?_toJson`, `ofValues?_values` — the two steps of reading an instruction;
* `ofJson?_toJson` — an instruction as a value;
* `json_roundTrip` — instructions, operands and the groups of operands in documents.
-/

open Json (Place Plain RoundTrips)

variable {depth : Nat}

/-- The object that an instruction is written as is nested four deep at most. -/
theorem plain_toJson (ins : Instruction) : Plain (depth + 4) ins.toJson := by
  apply Plain.record
  unfold members
  rw [List.forall_mem_cons]
  refine ⟨ins.category.plain_toJson, ?_⟩
  cases ins with
  | onlyName op => simpa using op.plain_toJson
  | field op a i f =>
    simpa using ⟨op.plain_toJson, a.plain_toJson, i.plain_toJson, f.plain_toJson⟩
  | nonField op a i => simpa using ⟨op.plain_toJson, a.plain_toJson, i.plain_toJson⟩
  | arg op a i n =>
    simpa using ⟨op.plain_toJson, a.plain_toJson, i.plain_toJson, n.plain_toJson⟩

/-- The values of an instruction's members, without the category. -/
def values : Instruction → List Json
  | onlyName op => [op.toJson]
  | field op a i f => [op.toJson, a.toJson, i.toJson, f.toJson]
  | nonField op a i => [op.toJson, a.toJson, i.toJson]
  | arg op a i n => [op.toJson, a.toJson, i.toJson, n.toJson]

/-- The category of an instruction's object, and its other members. -/
theorem tagged?_toJson (ins : Instruction) :
    tagged? ins.toJson = some (ins.category, .record ((memberNames ins.category).zip ins.values)) := by
  cases ins <;> rfl

theorem allFields?_values (ins : Instruction) :
    Json.allFields? (memberNames ins.category) (.record ((memberNames ins.category).zip ins.values))
      = some ins.values := by
  cases ins <;> rfl

theorem ofValues?_values (ins : Instruction) :
    ofValues? ins.category ins.values = some ins := by
  cases ins with
  | onlyName op =>
    show (NameOp.ofJson? .instruction op.toJson).map onlyName = some (onlyName op)
    simp
  | field op a i f =>
    show ((FieldOp.ofJson? .instruction op.toJson).bind fun op =>
      (Address.ofJson? a.toJson).bind fun a => (Index.ofJson? i.toJson).bind fun i =>
      (FieldSpec.ofJson? .instruction f.toJson).bind fun f => some (field op a i f))
        = some (field op a i f)
    simp
  | nonField op a i =>
    show ((NonFieldOp.ofJson? .instruction op.toJson).bind fun op =>
      (Address.ofJson? a.toJson).bind fun a => (Index.ofJson? i.toJson).bind fun i =>
      some (nonField op a i)) = some (nonField op a i)
    simp
  | arg op a i n =>
    show ((ArgOp.ofJson? .instruction op.toJson).bind fun op =>
      (Address.ofJson? a.toJson).bind fun a => (Index.ofJson? i.toJson).bind fun i =>
      (ArgSpec.ofJson? .instruction n.toJson).bind fun n => some (arg op a i n))
        = some (arg op a i n)
    simp

theorem ofJson?_toJson (ins : Instruction) : ofJson? ins.toJson = some ins := by
  have hplain : Plain maxDepth ins.toJson := ins.plain_toJson
  have hsound : ins.toJson.isSound maxDepth := hplain.isSound
  rw [ofJson?, if_pos hsound, tagged?_toJson]
  simp only [Option.bind_eq_bind, Option.bind_some, allFields?_values, ofValues?_values]

/-- **Documents.** Every instruction is read from the document that it is written as, closed up or
    laid out; so is every operand, and so is every field specification and argument, whether it is
    left out or not. -/
theorem json_roundTrip :
    RoundTrips toJson ofJson? ∧ RoundTrips Operand.toJson Operand.ofJson? ∧
      RoundTrips FieldSpec.toJson (FieldSpec.ofJson? .document) ∧
      RoundTrips ArgSpec.toJson (ArgSpec.ofJson? .document) := by
  have hins : ∀ ins : Instruction, Plain 4 ins.toJson := plain_toJson
  have hoperand : ∀ o : Operand, Plain 2 o.toJson := Operand.plain_toJson
  have hfields : ∀ f : FieldSpec, Plain 2 f.toJson := FieldSpec.plain_toJson
  have hargument : ∀ a : ArgSpec, Plain 1 a.toJson := ArgSpec.plain_toJson
  refine ⟨?_, ?_, ?_, ?_⟩
  · exact Json.roundTrips_of_plain hins ofJson?_toJson
  · exact Json.roundTrips_of_plain hoperand Operand.ofJson?_toJson
  · exact Json.roundTrips_of_plain hfields (FieldSpec.ofJson?_toJson .document)
  · exact Json.roundTrips_of_plain hargument (ArgSpec.ofJson?_toJson .document)

end MixAsm.Instruction
