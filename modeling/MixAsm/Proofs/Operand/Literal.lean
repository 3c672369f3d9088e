import MixAsm.Operand.Literal
import MixAsm.Proofs.Outcome

namespace MixAsm

/-!
# Reading operands from literals and words

When a literal is read as an operand of each kind: its value is the operand's number. The bounds
need no mention, as no operand has a number out of bounds. Nor does the narrowing of a 32-bit word,
as every operand's number fits.

* `OperandKind.parse_eq_ok_iff` — any kind of operand;
* `narrow?_bind`, `Address.ofUInt32_eq`, `Index.ofUInt32_eq` — words that are narrowed first;
* `Address.parse_eq_ok_iff`, `Index.parse_eq_ok_iff`, `Argument.parse_eq_ok_iff`,
  `Fields.parse_eq_ok_iff` — each kind.
-/

/-- A literal is read exactly if it has a value and the value is accepted. -/
theorem OperandKind.parse_eq_ok_iff {α : Type} {kind : OperandKind} {accept : Nat → Option α}
    {text : String} {column : Nat} {v : α} :
    kind.parse accept text column = .ok v ↔
      ∃ n, Text.literal? text.toList = some n ∧ accept n = some v := by
  rw [← Option.bind_eq_some_iff, OperandKind.parse]
  split
  · next h => rw [h, Option.some.injEq, Except.ok.injEq]
  · next h => simp [h]

/-- A number is a word exactly within the bounds. -/
theorem word32?_eq_some_iff {n : Nat} {w : UInt32} : word32? n = some w ↔ n = w.toNat := by
  constructor
  · intro h
    simp only [word32?] at h
    split at h
    · next hn =>
      rw [← Option.some.inj h, UInt32.toNat_ofNat_of_lt' hn]
    · simp at h
  · rintro rfl
    simp

/-- A number is an argument exactly if it is the argument's word. -/
theorem map_word32?_eq_some_iff {n : Nat} {a : Argument} :
    (word32? n).map Argument.mk = some a ↔ n = a.val.toNat := by
  rw [Option.map_eq_some_iff, ← word32?_eq_some_iff]
  constructor
  · rintro ⟨w, hw, rfl⟩
    exact hw
  · intro h
    exact ⟨a.val, h, rfl⟩

/-! ### Numbers out of bounds -/

theorem Address.ofNat?_eq_none_iff {n : Nat} :
    ofNat? n = none ↔ ¬ (OperandKind.address.min ≤ n ∧ n ≤ OperandKind.address.max) := by
  simp [ofNat?, OperandKind.min, OperandKind.max]

theorem Index.ofNat?_eq_none_iff {n : Nat} :
    ofNat? n = none ↔ ¬ (OperandKind.index.min ≤ n ∧ n ≤ OperandKind.index.max) := by
  simp [ofNat?, OperandKind.min, OperandKind.max]

theorem word32?_eq_none_iff {n : Nat} :
    word32? n = none ↔ 4294967295 < n := by
  simp only [word32?, UInt32.size, ite_eq_right_iff, reduceCtorEq, imp_false]
  omega

/-! ### Narrower words -/

/-- To narrow a word before its number is accepted refuses no number within the bounds, if all of
    these fit, and lets none wrap to another one. -/
theorem narrow?_bind {α Word : Type} {kind : OperandKind} {size : Nat} {cut : UInt32 → Word}
    {val : Word → Nat} {accept : Nat → Option α}
    (hcut : ∀ n : UInt32, n.toNat < size → val (cut n) = n.toNat)
    (hbounds : ∀ n, accept n = none ↔ ¬ (kind.min ≤ n ∧ n ≤ kind.max)) (hsize : kind.max < size)
    (n : UInt32) : ((narrow? size cut n).bind fun w => accept (val w)) = accept n.toNat := by
  unfold narrow?
  split
  · next hfits => rw [Option.bind_some, hcut n hfits]
  · next hfits =>
    have hwide : accept n.toNat = none := by
      rw [hbounds]
      omega
    rw [Option.bind_none, hwide]

theorem Address.ofUInt32_eq (n : UInt32) :
    ofUInt32 n = (ofNat? n.toNat).elim (.error ⟨.address, n⟩) .ok := by
  have hcut : ∀ n : UInt32, n.toNat < UInt16.size → n.toUInt16.toNat = n.toNat := by
    intro n hn
    rw [UInt32.toNat_toUInt16]
    exact Nat.mod_eq_of_lt hn
  have hnarrow : (narrow? UInt16.size UInt32.toUInt16 n).bind ofUInt16? = ofNat? n.toNat :=
    narrow?_bind hcut (fun _ => ofNat?_eq_none_iff) (by decide) n
  rw [ofUInt32, hnarrow]

theorem Index.ofUInt32_eq (n : UInt32) :
    ofUInt32 n = (ofNat? n.toNat).elim (.error ⟨.index, n⟩) .ok := by
  have hcut : ∀ n : UInt32, n.toNat < UInt8.size → n.toUInt8.toNat = n.toNat := by
    intro n hn
    rw [UInt32.toNat_toUInt8]
    exact Nat.mod_eq_of_lt hn
  have hnarrow : (narrow? UInt8.size UInt32.toUInt8 n).bind ofUInt8? = ofNat? n.toNat :=
    narrow?_bind hcut (fun _ => ofNat?_eq_none_iff) (by decide) n
  rw [ofUInt32, hnarrow]

/-! ### Literals of each kind -/

variable {text : String} {column : Nat}

theorem Address.parse_eq_ok_iff {a : Address} :
    Address.parse text column = .ok a ↔ Text.literal? text.toList = some a.val := by
  rw [Address.parse, OperandKind.parse_eq_ok_iff]
  simp only [Address.ofNat?_eq_some_iff, exists_eq_right]

theorem Index.parse_eq_ok_iff {i : Index} :
    Index.parse text column = .ok i ↔ Text.literal? text.toList = some i.val := by
  rw [Index.parse, OperandKind.parse_eq_ok_iff]
  simp only [Index.ofNat?_eq_some_iff, exists_eq_right]

theorem Argument.parse_eq_ok_iff {a : Argument} :
    Argument.parse text column = .ok a ↔ Text.literal? text.toList = some a.val.toNat := by
  rw [Argument.parse, OperandKind.parse_eq_ok_iff]
  simp only [map_word32?_eq_some_iff, exists_eq_right]

theorem Fields.parse_eq_ok_iff {left right : String} {leftColumn rightColumn : Nat} {f : Fields} :
    Fields.parse left leftColumn right rightColumn = .ok f ↔
      Text.literal? left.toList = some f.left.toNat ∧
        Text.literal? right.toList = some f.right.toNat := by
  have hword : ∀ {text : String} {column : Nat} {w : UInt32},
      OperandKind.fields.parse word32? text column = .ok w ↔
        Text.literal? text.toList = some w.toNat := by
    intro text column w
    rw [OperandKind.parse_eq_ok_iff]
    simp only [word32?_eq_some_iff, exists_eq_right]
  rw [Fields.parse]
  simp only [bind_eq_ok_iff, hword]
  constructor
  · rintro ⟨l, hl, r, hr, hf⟩
    cases hf
    exact ⟨hl, hr⟩
  · rintro ⟨hl, hr⟩
    exact ⟨f.left, hl, f.right, hr, rfl⟩

end MixAsm
