import MixAsm.Proofs.Instruction.Language

namespace MixAsm

/-!
# Printing and reading

The canonical text of an instruction writes it, whatever the configuration lets pass beyond the
strict grammar, so reading gives back what was printed.

* `Instruction.written_canonical` — the canonical text is in the grammar;
* `Instruction.canonical_roundTrip` — printing is undone by reading, and tells instructions apart.
-/

/-- The spelling of an opcode is one of its names, even where letters of either case are taken. -/
theorem Mnemonic.namedBy_spelling (cfg : Config) (m : Mnemonic) : m.NamedBy cfg m.spelling := by
  rw [namedBy_iff]
  conv_rhs => rw [← List.map_id m.spelling]
  apply List.map_congr_left
  intro c hc
  obtain hupper | hdigit := m.spelling_word.2 c hc
  · exact Config.fold_of_isUpper hupper
  · exact Config.fold_of_not_isAlpha (isAlpha_of_isDigit hdigit)

variable {cfg : Config}

/-- The plain decimal form of an address writes its number. -/
theorem Address.numeral_text (a : Address) : Text.Numeral a.val a.text.toList := by
  rw [text, Nat.toList_repr]
  exact Text.numeral_toDigits a.val

/-- The plain decimal form of an index writes its number. -/
theorem Index.numeral_text (i : Index) : Text.Numeral i.val i.text.toList := by
  rw [text, Nat.toList_repr]
  exact Text.numeral_toDigits i.val

/-- The plain decimal forms of address and index are among those that write them. -/
theorem operandsWritten_text (a : Address) (i : Index) :
    OperandsWritten cfg a i (' ' :: a.text.toList ++ ',' :: i.text.toList) := by
  exact ⟨[' '], a.text.toList, i.text.toList, rfl, isGap_singleton, a.numeral_text, i.numeral_text⟩

theorem FieldSpec.written_text (f : FieldSpec) : f.Written f.text.toList := by
  cases f with
  | default => exact .default
  | explicit f =>
    have hwritten := FieldSpec.Written.explicit (Text.numeral_toDigits f.left.toNat)
      (Text.numeral_toDigits f.right.toNat)
    simpa [text, Fields.text, toString] using hwritten

theorem ArgSpec.written_text (a : ArgSpec) : a.Written a.text.toList := by
  cases a with
  | default => exact .default
  | explicit a =>
    have hwritten := ArgSpec.Written.explicit (Text.numeral_toDigits a.val.toNat)
    simpa [text, Argument.text, toString] using hwritten

namespace Instruction

/-- What the canonical text puts behind the opcode's name. -/
theorem exists_tail_canonical (cfg : Config) (ins : Instruction) :
    ∃ t, ins.canonical.toList = ins.mnemonic.spelling ++ t ∧ TailWritten cfg ins t := by
  cases ins with
  | onlyName op => exact ⟨[], by simp [canonical, Mnemonic.name, mnemonic], .onlyName⟩
  | field op a i f =>
    refine ⟨_, ?_, .field (operandsWritten_text a i) f.written_text⟩
    simp [canonical, Mnemonic.name, mnemonic, toString]
  | nonField op a i =>
    refine ⟨_, ?_, .nonField (operandsWritten_text a i)⟩
    simp [canonical, Mnemonic.name, mnemonic, toString]
  | arg op a i n =>
    refine ⟨_, ?_, .arg (operandsWritten_text a i) n.written_text⟩
    simp [canonical, Mnemonic.name, mnemonic, toString]

/-- The canonical text writes the instruction. -/
theorem written_canonical (cfg : Config) (ins : Instruction) :
    ins.Written cfg ins.canonical.toList := by
  obtain ⟨t, hline, htail⟩ := ins.exists_tail_canonical cfg
  refine ⟨[], ins.mnemonic.spelling, t, [], by simpa using hline, isMargin_nil, ?_, htail,
    isMargin_nil⟩
  exact ins.mnemonic.namedBy_spelling cfg

/-- The canonical text is read as the instruction. -/
theorem parse_canonical (cfg : Config) (ins : Instruction) : parse cfg ins.canonical = .ok ins :=
  parse_of_written (written_canonical cfg ins)

/-- **Round trip.** Under every configuration the canonical text is read as the instruction it was
    made of, so no two instructions have it in common. -/
theorem canonical_roundTrip :
    (∀ cfg ins, parse cfg ins.canonical = .ok ins) ∧ Function.Injective canonical := by
  refine ⟨parse_canonical, ?_⟩
  -- a text that two instructions have in common is read as either of them
  intro ins ins' h
  have hread := parse_canonical {} ins
  rw [h, parse_canonical] at hread
  exact (Except.ok.inj hread).symm

end Instruction

end MixAsm
