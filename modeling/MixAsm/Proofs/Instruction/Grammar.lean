import MixAsm.Config
import MixAsm.Instruction
import MixAsm.Proofs.Text.Numeral

namespace MixAsm

/-!
# The grammar of a line

The lines that write an instruction, character by character and without tokens: the name of the
opcode, for all but the opcodes that stand alone a gap, the address, a comma and the index, and
then the group in parentheses that the instruction was given. A configuration may allow more than
one space in the gap, spaces around the line and letters of either case.

* `Mnemonic.NamedBy` — the names of an opcode;
* `FieldSpec.Written`, `ArgSpec.Written` — what stands for an optional group;
* `Instruction.Written` — the lines that write an instruction.
-/

/-! ### Spaces -/

/-- What may stand before and behind an instruction: nothing, or any number of spaces where they
    collapse. -/
def IsMargin (cfg : Config) (s : List Char) : Prop :=
  if cfg.collapseSpaces then ∀ c ∈ s, c = ' ' else s = []

/-- What stands between the name and the operands: one space, or one at least where spaces
    collapse. -/
def IsGap (cfg : Config) (s : List Char) : Prop :=
  if cfg.collapseSpaces then s ≠ [] ∧ ∀ c ∈ s, c = ' ' else s = [' ']

/-! ### Names -/

/-- The characters are the opcode's spelling, or differ from it in the case of letters where the
    configuration takes letters of either case. -/
def Mnemonic.NamedBy (cfg : Config) (w : List Char) (m : Mnemonic) : Prop :=
  if cfg.caseInsensitive then w.map Char.toUpper = m.spelling else w = m.spelling

/-! ### Operands -/

/-- The address and the index behind a gap, with a comma between them. -/
def OperandsWritten (cfg : Config) (a : Address) (i : Index) (t : List Char) : Prop :=
  ∃ s d₁ d₂, t = s ++ d₁ ++ ',' :: d₂ ∧ IsGap cfg s ∧ Text.Numeral a.val d₁ ∧
    Text.Numeral i.val d₂

/-- The group of a field specification: nothing by default, else its bounds with a colon between
    them. -/
inductive FieldSpec.Written : FieldSpec → List Char → Prop
  | default : Written .default []
  | explicit {f : Fields} {d₁ d₂ : List Char} (hleft : Text.Numeral f.left.toNat d₁)
      (hright : Text.Numeral f.right.toNat d₂) :
      Written (.explicit f) ('(' :: d₁ ++ ':' :: d₂ ++ [')'])

/-- The group of an argument: nothing by default, else the number. -/
inductive ArgSpec.Written : ArgSpec → List Char → Prop
  | default : Written .default []
  | explicit {a : Argument} {d : List Char} (hval : Text.Numeral a.val.toNat d) :
      Written (.explicit a) ('(' :: d ++ [')'])

/-! ### Instructions -/

namespace Instruction

/-- What follows the name of the opcode, by its category. -/
inductive TailWritten (cfg : Config) : Instruction → List Char → Prop
  | onlyName {op : NameOp} : TailWritten cfg (.onlyName op) []
  | field {op : FieldOp} {a : Address} {i : Index} {f : FieldSpec} {t g : List Char}
      (hops : OperandsWritten cfg a i t) (hgroup : f.Written g) :
      TailWritten cfg (.field op a i f) (t ++ g)
  | nonField {op : NonFieldOp} {a : Address} {i : Index} {t : List Char}
      (hops : OperandsWritten cfg a i t) : TailWritten cfg (.nonField op a i) t
  | arg {op : ArgOp} {a : Address} {i : Index} {n : ArgSpec} {t g : List Char}
      (hops : OperandsWritten cfg a i t) (hgroup : n.Written g) :
      TailWritten cfg (.arg op a i n) (t ++ g)

/-- The line writes the instruction: a margin, the opcode's name, its operands and a margin. -/
def Written (cfg : Config) (ins : Instruction) (line : List Char) : Prop :=
  ∃ l w t r, line = l ++ w ++ t ++ r ∧ IsMargin cfg l ∧ ins.mnemonic.NamedBy cfg w ∧
    TailWritten cfg ins t ∧ IsMargin cfg r

end Instruction

/-! ### Margins, gaps and names in other words -/

section

variable {cfg : Config} {s : List Char}

theorem IsMargin.eq_space (h : IsMargin cfg s) : ∀ c ∈ s, c = ' ' := by
  unfold IsMargin at h
  split at h
  · exact h
  · simp [h]

/-- Where spaces do not collapse, there are no margins. -/
theorem IsMargin.eq_nil (h : IsMargin cfg s) (hcollapse : cfg.collapseSpaces = false) :
    s = [] := by
  rwa [IsMargin, hcollapse, if_neg Bool.false_ne_true] at h

/-- Nothing is a margin under every configuration. -/
theorem isMargin_nil : IsMargin cfg [] := by simp [IsMargin]

/-- A gap is a run of spaces, and one space only unless spaces collapse. -/
theorem isGap_iff :
    IsGap cfg s ↔ s ≠ [] ∧ (∀ c ∈ s, c = ' ') ∧ (cfg.collapseSpaces ∨ s.length ≤ 1) := by
  unfold IsGap
  split
  · next h => simp [h]
  · next h =>
    constructor
    · rintro rfl
      simp
    · rintro ⟨hne, hs, hlen⟩
      obtain ⟨c, rfl⟩ : ∃ c, s = [c] := by
        apply List.length_eq_one_iff.mp
        have := List.length_pos_iff.mpr hne
        simp only [h, Bool.false_eq_true, false_or] at hlen
        omega
      rw [hs c (by simp)]

/-- One space is a gap under every configuration. -/
theorem isGap_singleton : IsGap cfg [' '] := isGap_iff.mpr ⟨by simp, by simp, by simp⟩

/-- A name is what the reader takes for the opcode's spelling. -/
theorem Mnemonic.namedBy_iff {m : Mnemonic} :
    m.NamedBy cfg s ↔ s.map cfg.fold = m.spelling := by
  unfold NamedBy
  split
  · next h =>
    have hfold : cfg.fold = Char.toUpper := by
      funext c
      simp [Config.fold, h]
    rw [hfold]
  · next h =>
    have hfold : cfg.fold = id := by
      funext c
      simp [Config.fold, h]
    rw [hfold, List.map_id]

end

end MixAsm
