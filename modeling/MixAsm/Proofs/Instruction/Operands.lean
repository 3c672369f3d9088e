import MixAsm.Instruction

namespace MixAsm

/-!
# The operands of an instruction

An instruction is its opcode and the list of its operands, and nothing else: the two make it up
again, and its canonical text shows them one by one. A group that is left out is missing from the
list, so no list of operands with a group is one without.

* `Instruction.ofOperands?` — the instruction that an opcode and a list of operands make up;
* `Instruction.ofOperands?_eq_some_iff` — these are its opcode and its operands;
* `Operand.Shown` — how an opcode is written with operands behind it;
* `Instruction.shown_canonical` — the canonical text;
* `Instruction.operands_determine` — all of this together.
-/

/-- The text shows an opcode and a list of operands: the opcode's name alone, or the name, a space,
    an address, a comma and an index, and directly behind it the group, if there is one. -/
inductive Operand.Shown (m : Mnemonic) : List Operand → String → Prop
  | alone : Shown m [] m.name
  | pair (a : Address) (i : Index) :
      Shown m [.address a, .index i]
        (m.name ++ " " ++ (address a).text ++ "," ++ (index i).text)
  | group (a : Address) (i : Index) {o : Operand} (ho : o.kind = .fields ∨ o.kind = .argument) :
      Shown m [.address a, .index i, o]
        (m.name ++ " " ++ (address a).text ++ "," ++ (index i).text ++ o.text)

namespace Instruction

variable {m : Mnemonic} {os : List Operand} {ins ins' : Instruction}

/-! ### Opcode and operands -/

/-- The instruction that an opcode and a list of operands make up, if they fit together. -/
def ofOperands? : Mnemonic → List Operand → Option Instruction
  | .onlyName op, [] => some (onlyName op)
  | .field op, [.address a, .index i] => some (field op a i .default)
  | .field op, [.address a, .index i, .fields f] => some (field op a i (.explicit f))
  | .nonField op, [.address a, .index i] => some (nonField op a i)
  | .arg op, [.address a, .index i] => some (arg op a i .default)
  | .arg op, [.address a, .index i, .argument n] => some (arg op a i (.explicit n))
  | _, _ => none

/-- An instruction is made up again of its opcode and its operands. -/
theorem ofOperands?_operands (ins : Instruction) :
    ofOperands? ins.mnemonic ins.operands = some ins := by
  cases ins with
  | onlyName op => rfl
  | field op a i f => cases f <;> rfl
  | nonField op a i => rfl
  | arg op a i n => cases n <;> rfl

/-- An opcode and a list of operands make up the instruction that has both, and no other. -/
theorem ofOperands?_eq_some_iff :
    ofOperands? m os = some ins ↔ ins.mnemonic = m ∧ ins.operands = os := by
  constructor
  · intro h
    unfold ofOperands? at h
    split at h <;> cases h <;> exact ⟨rfl, rfl⟩
  · rintro ⟨rfl, rfl⟩
    exact ofOperands?_operands ins

theorem eq_iff_operands_eq :
    ins = ins' ↔ ins.mnemonic = ins'.mnemonic ∧ ins.operands = ins'.operands := by
  rw [← ofOperands?_eq_some_iff, ofOperands?_operands, Option.some.injEq, eq_comm]

/-! ### The canonical text -/

/-- The canonical text shows the opcode and the operands. -/
theorem shown_canonical (ins : Instruction) :
    Operand.Shown ins.mnemonic ins.operands ins.canonical := by
  cases ins with
  | onlyName op => exact .alone
  | field op a i f =>
    cases f with
    | default =>
      have htext : (field op a i .default).canonical
          = (Mnemonic.field op).name ++ " " ++ a.text ++ "," ++ i.text := by
        simp [canonical, FieldSpec.text, toString]
      rw [htext]
      exact .pair a i
    | explicit f => exact .group a i (.inl rfl)
  | nonField op a i => exact .pair a i
  | arg op a i n =>
    cases n with
    | default =>
      have htext : (arg op a i .default).canonical
          = (Mnemonic.arg op).name ++ " " ++ a.text ++ "," ++ i.text := by
        simp [canonical, ArgSpec.text, toString]
      rw [htext]
      exact .pair a i
    | explicit n => exact .group a i (.inr rfl)

/-- **Operands.** The canonical text of an instruction shows its opcode and its operands, and these
    make up the instruction again: two instructions with the same opcode and the same operands are
    one and the same, whether a group is left out or not. -/
theorem operands_determine :
    (∀ ins : Instruction, Operand.Shown ins.mnemonic ins.operands ins.canonical ∧
      ofOperands? ins.mnemonic ins.operands = some ins) ∧
    ∀ ins ins' : Instruction,
      ins = ins' ↔ ins.mnemonic = ins'.mnemonic ∧ ins.operands = ins'.operands :=
  ⟨fun ins => ⟨ins.shown_canonical, ins.ofOperands?_operands⟩, fun _ _ => eq_iff_operands_eq⟩

end Instruction

end MixAsm
