import MixAsm.Instruction
import MixAsm.Mnemonic.Json
import MixAsm.Operand.Json

namespace MixAsm.Instruction

/-!
# Instructions in JSON

An instruction is an object whose member `category` says which members belong to it: the opcode,
and for all but the opcodes that stand alone the address and the index, and then the field
specification or the argument. The members may come in any order, and others are passed over. An
array of the category and the members' values in order is an instruction too.

Since the category may come last, a document is sound as a whole before it is an instruction: no
text in it is ill-formed, no number overflows, and it is not nested too deep.
-/

/-- The members of an instruction, the category first. -/
def members (ins : Instruction) : List (String × Json) :=
  ("category", ins.category.toJson) :: match ins with
    | onlyName op => [("op", op.toJson)]
    | field op a i f =>
      [("op", op.toJson), ("address", a.toJson), ("index", i.toJson), ("fields", f.toJson)]
    | nonField op a i => [("op", op.toJson), ("address", a.toJson), ("index", i.toJson)]
    | arg op a i n =>
      [("op", op.toJson), ("address", a.toJson), ("index", i.toJson), ("argument", n.toJson)]

/-- The instruction as a value. -/
def toJson (ins : Instruction) : Json := .record ins.members

/-- The members that belong to an instruction of a category, without the category. -/
def memberNames : Category → List String
  | .onlyName => ["op"]
  | .field => ["op", "address", "index", "fields"]
  | .nonField => ["op", "address", "index"]
  | .arg => ["op", "address", "index", "argument"]

/-- The instruction of a category whose members have the given values. -/
def ofValues? : Category → List Json → Option Instruction
  | .onlyName, [op] => (NameOp.ofJson? .instruction op).map onlyName
  | .field, [op, a, i, f] => do
    return field (← FieldOp.ofJson? .instruction op) (← Address.ofJson? a) (← Index.ofJson? i)
      (← FieldSpec.ofJson? .instruction f)
  | .nonField, [op, a, i] => do
    return nonField (← NonFieldOp.ofJson? .instruction op) (← Address.ofJson? a)
      (← Index.ofJson? i)
  | .arg, [op, a, i, n] => do
    return arg (← ArgOp.ofJson? .instruction op) (← Address.ofJson? a) (← Index.ofJson? i)
      (← ArgSpec.ofJson? .instruction n)
  | _, _ => none

/-- The category that a value names, and the value that holds the other members. -/
def tagged? : Json → Option (Category × Json)
  | .object members => do
    let tag ← Json.member? "category" members
    let name ← tag.toText?
    let category ← Category.all.find? (·.key == name)
    if Json.occurrences "category" members = 1 then
      some (category, .object (members.filter (·.1 ≠ some "category")))
    else none
  | .array (tag :: values) => do
    let name ← tag.toText?
    let category ← Category.all.find? (·.key == name)
    return (category, .array values)
  | _ => none

/-- How deep the arrays and objects of an instruction's document may be nested. -/
def maxDepth : Nat := 127

/-- The instruction that a value gives. -/
def ofJson? (v : Json) : Option Instruction :=
  if v.isSound maxDepth then do
    let (category, rest) ← tagged? v
    let values ← Json.allFields? (memberNames category) rest
    ofValues? category values
  else none

end MixAsm.Instruction
