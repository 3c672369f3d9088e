import MixAsm.Operand.Json
import MixAsm.Proofs.Json.Decode
import MixAsm.Proofs.Json.Plain
import MixAsm.Proofs.Operand.Literal

namespace MixAsm

/-!
# Operands are read back from JSON

Every operand, and every group that may be left out, is read from its value in JSON. The numbers of
operands fit into 32 bits, so the value is a plain one. An address and an index are read from
nothing but their own numbers.

Each type has `ofJson?_toJson` and `plain_toJson`.
-/

open Json (Place Plain)

variable {depth : Nat}

/-! ### Numbers -/

@[simp] theorem word32OfJson?_nat (w : UInt32) : word32OfJson? (.nat w.toNat) = some w := by
  simp [word32OfJson?, Json.nat, Json.toNat?]

theorem word32OfJson?_of_lt {n : Nat} (h : n < UInt32.size) :
    ∃ w : UInt32, w.toNat = n ∧ word32OfJson? (.nat n) = some w := by
  refine ⟨.ofNat n, UInt32.toNat_ofNat_of_lt' h, ?_⟩
  simp [word32OfJson?, Json.nat, Json.toNat?, word32?, h]

theorem word32OfJson?_eq_some_iff {v : Json} {w : UInt32} :
    word32OfJson? v = some w ↔ v = .nat w.toNat := by
  simp only [word32OfJson?, Option.bind_eq_some_iff, Json.toNat?_eq_some_iff,
    word32?_eq_some_iff, exists_eq_right]

namespace Address

theorem val_lt_size (a : Address) : a.val < UInt32.size :=
  Nat.lt_of_le_of_lt a.le_max (by decide)

@[simp] theorem ofJson?_toJson (a : Address) : ofJson? a.toJson = some a := by
  obtain ⟨w, hw, hread⟩ := word32OfJson?_of_lt a.val_lt_size
  rw [ofJson?, toJson, hread, Option.bind_some, ofUInt32_eq, hw, ofNat?_val]
  rfl

theorem plain_toJson (a : Address) : Plain depth a.toJson := .nat a.val_lt_size

theorem toOption_ofUInt32 (w : UInt32) : (ofUInt32 w).toOption = ofNat? w.toNat := by
  rw [ofUInt32_eq]
  cases ofNat? w.toNat <;> rfl

/-- An address is read from its own number and from nothing else. -/
theorem ofJson?_eq_some_iff {v : Json} {a : Address} : ofJson? v = some a ↔ v = a.toJson := by
  constructor
  · intro h
    obtain ⟨w, hw, hval⟩ := Option.bind_eq_some_iff.mp h
    rw [toOption_ofUInt32, ofNat?_eq_some_iff] at hval
    rw [word32OfJson?_eq_some_iff.mp hw, hval, toJson]
  · rintro rfl
    exact ofJson?_toJson a

end Address

namespace Index

theorem val_lt_size (i : Index) : i.val < UInt32.size :=
  Nat.lt_of_le_of_lt i.le_five (by decide)

@[simp] theorem ofJson?_toJson (i : Index) : ofJson? i.toJson = some i := by
  obtain ⟨w, hw, hread⟩ := word32OfJson?_of_lt i.val_lt_size
  rw [ofJson?, toJson, hread, Option.bind_some, ofUInt32_eq, hw, ofNat?_val]
  rfl

theorem plain_toJson (i : Index) : Plain depth i.toJson := .nat i.val_lt_size

theorem toOption_ofUInt32 (w : UInt32) : (ofUInt32 w).toOption = ofNat? w.toNat := by
  rw [ofUInt32_eq]
  cases ofNat? w.toNat <;> rfl

/-- An index is read from its own number and from nothing else. -/
theorem ofJson?_eq_some_iff {v : Json} {i : Index} : ofJson? v = some i ↔ v = i.toJson := by
  constructor
  · intro h
    obtain ⟨w, hw, hval⟩ := Option.bind_eq_some_iff.mp h
    rw [toOption_ofUInt32, ofNat?_eq_some_iff] at hval
    rw [word32OfJson?_eq_some_iff.mp hw, hval, toJson]
  · rintro rfl
    exact ofJson?_toJson i

end Index

@[simp] theorem Fields.ofJson?_toJson (f : Fields) : ofJson? f.toJson = some f := by
  show ((word32OfJson? (.nat f.left.toNat)).bind fun left =>
    (word32OfJson? (.nat f.right.toNat)).bind fun right => some (Fields.mk left right)) = some f
  simp

theorem Fields.plain_toJson (f : Fields) : Plain (depth + 1) f.toJson := by
  apply Plain.record
  simpa using ⟨.nat f.left.toNat_lt_size, .nat f.right.toNat_lt_size⟩

@[simp] theorem Argument.ofJson?_toJson (a : Argument) : ofJson? a.toJson = some a := by
  simp [ofJson?, toJson]

theorem Argument.plain_toJson (a : Argument) : Plain depth a.toJson := .nat a.val.toNat_lt_size

/-! ### Groups that may be left out -/

@[simp] theorem FieldSpec.ofJson?_toJson (place : Place) (f : FieldSpec) :
    ofJson? place f.toJson = some f := by
  cases f with
  | default => rfl
  | explicit f =>
    show (Fields.ofJson? f.toJson).map explicit = some (explicit f)
    simp

theorem FieldSpec.plain_toJson (f : FieldSpec) : Plain (depth + 2) f.toJson := by
  cases f with
  | default => exact .str _
  | explicit f =>
    apply Plain.record
    simpa using f.plain_toJson

@[simp] theorem ArgSpec.ofJson?_toJson (place : Place) (a : ArgSpec) :
    ofJson? place a.toJson = some a := by
  cases a with
  | default => rfl
  | explicit a =>
    show (Argument.ofJson? a.toJson).map explicit = some (explicit a)
    simp

theorem ArgSpec.plain_toJson (a : ArgSpec) : Plain (depth + 1) a.toJson := by
  cases a with
  | default => exact .str _
  | explicit a =>
    apply Plain.record
    simpa using a.plain_toJson

/-! ### Operands -/

theorem Operand.ofJson?_toJson (o : Operand) : ofJson? o.toJson = some o := by
  cases o with
  | address a =>
    show (Address.ofJson? a.toJson).map address = some (address a)
    simp
  | index i =>
    show (Index.ofJson? i.toJson).map index = some (index i)
    simp
  | fields f =>
    show (Fields.ofJson? f.toJson).map fields = some (fields f)
    simp
  | argument a =>
    show (Argument.ofJson? a.toJson).map argument = some (argument a)
    simp

theorem Operand.plain_toJson (o : Operand) : Plain (depth + 2) o.toJson := by
  apply Plain.record
  rw [List.forall_mem_singleton]
  cases o with
  | address a => exact a.plain_toJson
  | index i => exact i.plain_toJson
  | fields f => exact f.plain_toJson
  | argument a => exact a.plain_toJson

end MixAsm
