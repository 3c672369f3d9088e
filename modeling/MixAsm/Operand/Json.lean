import MixAsm.Json.Decode
import MixAsm.Operand

namespace MixAsm

/-!
# Operands in JSON

An address, an index and an argument are their numbers, the bounds of a field an object of two
numbers, and an operand an object with its kind as the key. A group that is left out is
`"default"`; one that is written stands under `"explicit"`.
-/

open Json (Place)

/-- The number in a 32-bit word. -/
def word32OfJson? (v : Json) : Option UInt32 := v.toNat?.bind word32?

namespace OperandKind

/-- The name of the kind in a document. -/
def key : OperandKind → String
  | address => "address"
  | index => "index"
  | fields => "fields"
  | argument => "argument"

end OperandKind

namespace Address

/-- The address as a value. -/
def toJson (a : Address) : Json := .nat a.val

/-- The address that a value gives. -/
def ofJson? (v : Json) : Option Address := (word32OfJson? v).bind fun n => (ofUInt32 n).toOption

end Address

namespace Index

/-- The index as a value. -/
def toJson (i : Index) : Json := .nat i.val

/-- The index that a value gives. -/
def ofJson? (v : Json) : Option Index := (word32OfJson? v).bind fun n => (ofUInt32 n).toOption

end Index

namespace Fields

/-- The bounds as a value. -/
def toJson (f : Fields) : Json :=
  .record [("left", .nat f.left.toNat), ("right", .nat f.right.toNat)]

/-- The bounds that a value gives. -/
def ofJson? (v : Json) : Option Fields := do
  match ← Json.allFields? ["left", "right"] v with
  | [left, right] => return ⟨← word32OfJson? left, ← word32OfJson? right⟩
  | _ => none

end Fields

namespace Argument

/-- The argument as a value. -/
def toJson (a : Argument) : Json := .nat a.val.toNat

/-- The argument that a value gives. -/
def ofJson? (v : Json) : Option Argument := (word32OfJson? v).map .mk

end Argument

namespace FieldSpec

/-- The field specification as a value. -/
def toJson : FieldSpec → Json
  | default => .str "default"
  | explicit f => .record [("explicit", f.toJson)]

/-- The field specification that a value gives. -/
def ofJson? (place : Place) (v : Json) : Option FieldSpec := do
  match ← v.variant? with
  | ("default", payload) => if Json.isNoPayload place payload then some default else none
  | ("explicit", some payload) => (Fields.ofJson? payload).map explicit
  | _ => none

end FieldSpec

namespace ArgSpec

/-- The argument, or its absence, as a value. -/
def toJson : ArgSpec → Json
  | default => .str "default"
  | explicit a => .record [("explicit", a.toJson)]

/-- The argument, or its absence, that a value gives. -/
def ofJson? (place : Place) (v : Json) : Option ArgSpec := do
  match ← v.variant? with
  | ("default", payload) => if Json.isNoPayload place payload then some default else none
  | ("explicit", some payload) => (Argument.ofJson? payload).map explicit
  | _ => none

end ArgSpec

namespace Operand

/-- The operand as a value, under the name of its kind. -/
def toJson (o : Operand) : Json :=
  .record [(o.kind.key, match o with
    | address a => a.toJson
    | index i => i.toJson
    | fields f => f.toJson
    | argument a => a.toJson)]

/-- The operand that a value gives. -/
def ofJson? (v : Json) : Option Operand := do
  match ← v.variant? with
  | ("address", some payload) => (Address.ofJson? payload).map address
  | ("index", some payload) => (Index.ofJson? payload).map index
  | ("fields", some payload) => (Fields.ofJson? payload).map fields
  | ("argument", some payload) => (Argument.ofJson? payload).map argument
  | _ => none

end Operand

end MixAsm
