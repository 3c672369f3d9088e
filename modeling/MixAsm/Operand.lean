namespace MixAsm

/-!
# Operands

What may follow an opcode: an address, an index, and in parentheses either a field specification
or an argument. The bounds of address and index are part of their types.

* `OperandKind.min`, `OperandKind.max` — the bounds of each kind;
* `Address.ofNat?`, `Index.ofNat?` — a number that is within bounds, or nothing;
* `Address.ofUInt32`, `Index.ofUInt32` — a 32-bit word, narrowed to the operand's own width first.
-/

/-- The four kinds of operand. -/
inductive OperandKind
  | address | index | fields | argument
  deriving DecidableEq, Repr

namespace OperandKind

/-- What a message calls an operand of the kind; a field specification is blamed by its parts. -/
def noun : OperandKind → String
  | address => "address"
  | index => "index"
  | fields => "field"
  | argument => "argument"

/-- The least value of an operand of the kind. -/
def min : OperandKind → Nat
  | index => 1
  | address | fields | argument => 0

/-- The greatest value of an operand of the kind. -/
def max : OperandKind → Nat
  | address => 3999
  | index => 5
  | fields | argument => 4294967295

end OperandKind

/-- A number that an operand of its kind cannot take. -/
structure OutOfRange where
  operand : OperandKind
  value : UInt32
  deriving DecidableEq, Repr

/-- The sentence that reports a number out of bounds. -/
def OutOfRange.message (e : OutOfRange) : String :=
  s!"{e.operand.noun} {e.value.toNat} is out of range {e.operand.min}..={e.operand.max}"

/-- The word of a narrower width with the same number, if there is one. There are `size` narrower
    words, and `cut` drops the bits that they have no place for. -/
def narrow? {Word : Type} (size : Nat) (cut : UInt32 → Word) (n : UInt32) : Option Word :=
  if n.toNat < size then some (cut n) else none

/-- A memory address. -/
@[ext] structure Address where
  val : Nat
  le_max : val ≤ 3999
  deriving DecidableEq, Repr

namespace Address

/-- The address with the number `n`, if there is one. -/
def ofNat? (n : Nat) : Option Address :=
  if h : n ≤ 3999 then some ⟨n, h⟩ else none

/-- The address with the number in a 16-bit word, if there is one. -/
def ofUInt16? (n : UInt16) : Option Address := ofNat? n.toNat

/-- The address with the number in a 32-bit word, or what is wrong with it. A number that does not
    fit into 16 bits is no address. -/
def ofUInt32 (n : UInt32) : Except OutOfRange Address :=
  ((narrow? UInt16.size UInt32.toUInt16 n).bind ofUInt16?).elim (.error ⟨.address, n⟩) .ok

/-- The address in decimal digits. -/
def text (a : Address) : String := a.val.repr

@[simp] theorem ofNat?_val (a : Address) : ofNat? a.val = some a := by
  simp [ofNat?, a.le_max]

/-- A number is an address exactly within the bounds. -/
theorem ofNat?_eq_some_iff {n : Nat} {a : Address} : ofNat? n = some a ↔ n = a.val := by
  constructor
  · intro h
    simp only [ofNat?] at h
    split at h <;> simp_all [Address.ext_iff]
  · rintro rfl
    simp

end Address

/-- An index register's number. -/
@[ext] structure Index where
  val : Nat
  one_le : 1 ≤ val
  le_five : val ≤ 5
  deriving DecidableEq, Repr

namespace Index

/-- The index with the number `n`, if there is one. -/
def ofNat? (n : Nat) : Option Index :=
  if h : 1 ≤ n ∧ n ≤ 5 then some ⟨n, h.1, h.2⟩ else none

/-- The index with the number in a byte, if there is one. -/
def ofUInt8? (n : UInt8) : Option Index := ofNat? n.toNat

/-- The index with the number in a 32-bit word, or what is wrong with it. A number that does not
    fit into a byte is no index. -/
def ofUInt32 (n : UInt32) : Except OutOfRange Index :=
  ((narrow? UInt8.size UInt32.toUInt8 n).bind ofUInt8?).elim (.error ⟨.index, n⟩) .ok

/-- The index in decimal digits. -/
def text (i : Index) : String := i.val.repr

@[simp] theorem ofNat?_val (i : Index) : ofNat? i.val = some i := by
  simp [ofNat?, i.one_le, i.le_five]

/-- A number is an index exactly within the bounds. -/
theorem ofNat?_eq_some_iff {n : Nat} {i : Index} : ofNat? n = some i ↔ n = i.val := by
  constructor
  · intro h
    simp only [ofNat?] at h
    split at h <;> simp_all [Index.ext_iff]
  · rintro rfl
    simp

end Index

/-- The 32-bit word with the number `n`, if there is one. -/
def word32? (n : Nat) : Option UInt32 :=
  if n < UInt32.size then some (.ofNat n) else none

@[simp] theorem word32?_toNat (w : UInt32) : word32? w.toNat = some w := by
  simp [word32?, w.toNat_lt_size]

/-- The bounds of a field, in the order they are written in. -/
structure Fields where
  left : UInt32
  right : UInt32
  deriving DecidableEq, Repr

namespace Fields

/-- Is the left bound beyond the right one? Such fields are accepted. -/
def isReversed (f : Fields) : Bool := f.right < f.left

/-- The bounds in parentheses, as they follow an index. -/
def text (f : Fields) : String := s!"({f.left.toNat}:{f.right.toNat})"

end Fields

/-- The number in parentheses that an opcode for devices takes. -/
structure Argument where
  val : UInt32
  deriving DecidableEq, Repr

/-- The argument in parentheses, as it follows an index. -/
def Argument.text (a : Argument) : String := s!"({a.val.toNat})"

/-- The optional field specification of an instruction; leaving it out differs from any value. -/
inductive FieldSpec
  | default
  | explicit (fields : Fields)
  deriving DecidableEq, Repr

namespace FieldSpec

/-- The fields, where they are written. -/
def explicit? : FieldSpec → Option Fields
  | default => none
  | explicit f => some f

/-- What is written after the index. -/
def text : FieldSpec → String
  | default => ""
  | explicit f => f.text

end FieldSpec

/-- The optional argument of an instruction; leaving it out differs from any value. -/
inductive ArgSpec
  | default
  | explicit (argument : Argument)
  deriving DecidableEq, Repr

namespace ArgSpec

/-- The argument, where it is written. -/
def explicit? : ArgSpec → Option Argument
  | default => none
  | explicit a => some a

/-- What is written after the index. -/
def text : ArgSpec → String
  | default => ""
  | explicit a => a.text

end ArgSpec

/-- An operand that is written on a line. -/
inductive Operand
  | address (a : Address)
  | index (i : Index)
  | fields (f : Fields)
  | argument (a : Argument)
  deriving DecidableEq, Repr

namespace Operand

/-- The kind of an operand. -/
def kind : Operand → OperandKind
  | address _ => .address
  | index _ => .index
  | fields _ => .fields
  | argument _ => .argument

/-- The operand as it is written. -/
def text : Operand → String
  | address a => a.text
  | index i => i.text
  | fields f => f.text
  | argument a => a.text

end Operand

end MixAsm
