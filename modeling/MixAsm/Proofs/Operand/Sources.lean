import Mathlib.Tactic.TFAE
import MixAsm.Proofs.Instruction.RoundTrip
import MixAsm.Proofs.Operand.Json

namespace MixAsm

/-!
# Ways of making an operand

An address or an index is made of a literal, of a number in a word of 32 bits or in one that is just
wide enough, of a document, and of a line with the literal in its place. All of these make the same
operand of a number, or all of them make none: no number wraps to another one in a narrower word.

* `BoundedOperand` — an operand with bounds, by the ways of making it;
* `BoundedOperand.Agree` — what it is for the ways to agree on a number;
* `Instruction.exists_of_parse_bare`, `Instruction.parse_bare` — lines with an address and an index
  behind the opcode;
* `Operand.sources_agree` — addresses and indices.
-/

/-! ### Operands with bounds -/

/-- An operand with bounds: its number, how it is made of a literal in a column, of a word of 32
    bits, of a narrower word and of a value in JSON, and how it is shown. -/
structure BoundedOperand (α Word : Type) where
  val : α → Nat
  parse : String → Nat → Except ParseError α
  ofUInt32 : UInt32 → Except OutOfRange α
  wordVal : Word → Nat
  ofWord? : Word → Option α
  ofJson? : Json → Option α
  toJson : α → Json
  text : α → String

/-- An address by the ways of making it. -/
def Address.bounded : BoundedOperand Address UInt16 where
  val := val
  parse := parse
  ofUInt32 := ofUInt32
  wordVal := UInt16.toNat
  ofWord? := ofUInt16?
  ofJson? := ofJson?
  toJson := toJson
  text := text

/-- An index by the ways of making it. -/
def Index.bounded : BoundedOperand Index UInt8 where
  val := val
  parse := parse
  ofUInt32 := ofUInt32
  wordVal := UInt8.toNat
  ofWord? := ofUInt8?
  ofJson? := ofJson?
  toJson := toJson
  text := text

namespace BoundedOperand

variable {α Word : Type} {B : BoundedOperand α Word} {lo hi n : Nat} {t : String} {column : Nat}
  {line : Except ParseError Instruction} {holds : α → Instruction → Prop}

/-- The ways of making an operand of the number `n` agree, where the literal `t` writes the number
    and `line` is read of a line with the literal in the operand's place: if the number is within
    bounds all of them make an operand, and else none does. What they make is the one operand with
    the number, which is shown as the number is. -/
structure Agree (B : BoundedOperand α Word) (lo hi n : Nat) (t : String) (column : Nat)
    (line : Except ParseError Instruction) (holds : α → Instruction → Prop) : Prop where
  made_iff : List.TFAE [
    lo ≤ n ∧ n ≤ hi,
    ∃ v, B.parse t column = .ok v,
    ∃ v, ∃ w : UInt32, w.toNat = n ∧ B.ofUInt32 w = .ok v,
    ∃ v, ∃ w, B.wordVal w = n ∧ B.ofWord? w = some v,
    ∃ v, (Json.parse n.repr).bind B.ofJson? = some v,
    ∃ ins, line = .ok ins]
  same : ∀ v, List.TFAE [
    B.val v = n,
    B.parse t column = .ok v,
    ∃ w : UInt32, w.toNat = n ∧ B.ofUInt32 w = .ok v,
    ∃ w, B.wordVal w = n ∧ B.ofWord? w = some v,
    (Json.parse n.repr).bind B.ofJson? = some v,
    ∃ ins, line = .ok ins ∧ holds v ins]
  shown : ∀ v, B.val v = n → (B.toJson v).compact = n.repr ∧ B.text v = n.repr

/-- Each way makes the operand with the number that it is given, if that is within bounds. -/
structure Lawful (B : BoundedOperand α Word) (lo hi : Nat) : Prop where
  exists_val_iff : ∀ n, (∃ v, B.val v = n) ↔ lo ≤ n ∧ n ≤ hi
  parse_iff : ∀ t column v, B.parse t column = .ok v ↔ Text.literal? t.toList = some (B.val v)
  ofUInt32_iff : ∀ w v, B.ofUInt32 w = .ok v ↔ w.toNat = B.val v
  ofWord_iff : ∀ w v, B.ofWord? w = some v ↔ B.wordVal w = B.val v
  fits : ∀ v, (∃ w : UInt32, w.toNat = B.val v) ∧ ∃ w, B.wordVal w = B.val v
  ofJson_iff : ∀ d v, B.ofJson? d = some v ↔ d = B.toJson v
  toJson_eq : ∀ v, B.toJson v = .nat (B.val v)
  text_eq : ∀ v, B.text v = (B.val v).repr

/-! ### One way after the other -/

namespace Lawful

variable {v : α}

theorem parse_eq_ok_iff (h : B.Lawful lo hi) (ht : Text.Numeral n t.toList) :
    B.parse t column = .ok v ↔ B.val v = n := by
  rw [h.parse_iff, ht.literal?_eq, Option.some.injEq, eq_comm]

theorem exists_ofUInt32_eq_ok_iff (h : B.Lawful lo hi) :
    (∃ w : UInt32, w.toNat = n ∧ B.ofUInt32 w = .ok v) ↔ B.val v = n := by
  simp only [h.ofUInt32_iff]
  constructor
  · rintro ⟨w, rfl, hw⟩
    exact hw.symm
  · rintro rfl
    obtain ⟨w, hw⟩ := (h.fits v).1
    exact ⟨w, hw, hw⟩

theorem exists_ofWord?_eq_some_iff (h : B.Lawful lo hi) :
    (∃ w, B.wordVal w = n ∧ B.ofWord? w = some v) ↔ B.val v = n := by
  simp only [h.ofWord_iff]
  constructor
  · rintro ⟨w, rfl, hw⟩
    exact hw.symm
  · rintro rfl
    obtain ⟨w, hw⟩ := (h.fits v).2
    exact ⟨w, hw, hw⟩

/-- A document of a number holds the operand with this number. -/
theorem document_eq_some_iff (h : B.Lawful lo hi) :
    (Json.parse n.repr).bind B.ofJson? = some v ↔ B.val v = n := by
  rw [Json.parse_repr, Option.bind_some, h.ofJson_iff, h.toJson_eq, Json.nat_inj, eq_comm]

/-- **Agreement.** The ways agree if a line is read exactly where there is an operand with the
    number, and holds that operand and no other. -/
theorem agree (h : B.Lawful lo hi) (ht : Text.Numeral n t.toList)
    (hread : (∃ ins, line = .ok ins) → ∃ v, B.val v = n)
    (hholds : ∀ v, B.val v = n → ∃ ins, line = .ok ins ∧ holds v ins)
    (hother : ∀ v v' ins, holds v ins → holds v' ins → v = v') :
    B.Agree lo hi n t column line holds := by
  have hline : ∀ v, (∃ ins, line = .ok ins ∧ holds v ins) ↔ B.val v = n := by
    refine fun v => ⟨?_, hholds v⟩
    rintro ⟨ins, hins, hv⟩
    -- the line is read as one instruction only, which holds the operand with the number
    obtain ⟨v', hv'⟩ := hread ⟨ins, hins⟩
    obtain ⟨ins', hins', hheld⟩ := hholds v' hv'
    obtain rfl : ins = ins' := Except.ok.inj (hins.symm.trans hins')
    rw [hother v v' ins hv hheld, hv']
  have hmade : ∀ {p : α → Prop}, (∀ v, p v ↔ B.val v = n) → ((∃ v, p v) ↔ lo ≤ n ∧ n ≤ hi) := by
    intro p hp
    simp only [hp, h.exists_val_iff]
  have hmadeLine : (∃ ins, line = .ok ins) ↔ lo ≤ n ∧ n ≤ hi := by
    rw [← h.exists_val_iff]
    refine ⟨hread, ?_⟩
    rintro ⟨v, hv⟩
    obtain ⟨ins, hins, -⟩ := hholds v hv
    exact ⟨ins, hins⟩
  refine ⟨?_, fun v => ?_, fun v hv => ⟨?_, ?_⟩⟩
  · tfae_have 2 ↔ 1 := hmade fun v => h.parse_eq_ok_iff ht
    tfae_have 3 ↔ 1 := hmade fun v => h.exists_ofUInt32_eq_ok_iff
    tfae_have 4 ↔ 1 := hmade fun v => h.exists_ofWord?_eq_some_iff
    tfae_have 5 ↔ 1 := hmade fun v => h.document_eq_some_iff
    tfae_have 6 ↔ 1 := hmadeLine
    tfae_finish
  · tfae_have 2 ↔ 1 := h.parse_eq_ok_iff ht
    tfae_have 3 ↔ 1 := h.exists_ofUInt32_eq_ok_iff
    tfae_have 4 ↔ 1 := h.exists_ofWord?_eq_some_iff
    tfae_have 5 ↔ 1 := h.document_eq_some_iff
    tfae_have 6 ↔ 1 := hline v
    tfae_finish
  · rw [h.toJson_eq, hv, Json.compact_nat]
  · rw [h.text_eq, hv]

end Lawful

end BoundedOperand

theorem Address.ofUInt32_eq_ok_iff {w : UInt32} {a : Address} :
    ofUInt32 w = .ok a ↔ w.toNat = a.val := by
  rw [← ofNat?_eq_some_iff, ofUInt32_eq]
  cases ofNat? w.toNat <;> simp

/-- There is an address for each number up to 3999, which fits into 16 bits. -/
theorem Address.lawful : bounded.Lawful 0 3999 where
  exists_val_iff n := by
    constructor
    · rintro ⟨a, rfl⟩
      exact ⟨Nat.zero_le _, a.le_max⟩
    · rintro ⟨-, hn⟩
      exact ⟨⟨n, hn⟩, rfl⟩
  parse_iff _ _ _ := parse_eq_ok_iff
  ofUInt32_iff _ _ := ofUInt32_eq_ok_iff
  ofWord_iff _ _ := ofNat?_eq_some_iff
  fits a := by
    have hword : a.val < UInt16.size := Nat.lt_of_le_of_lt a.le_max (by decide)
    exact ⟨⟨.ofNat a.val, UInt32.toNat_ofNat_of_lt' a.val_lt_size⟩,
      ⟨.ofNat a.val, UInt16.toNat_ofNat_of_lt' hword⟩⟩
  ofJson_iff _ _ := ofJson?_eq_some_iff
  toJson_eq _ := rfl
  text_eq _ := rfl

theorem Index.ofUInt32_eq_ok_iff {w : UInt32} {i : Index} :
    ofUInt32 w = .ok i ↔ w.toNat = i.val := by
  rw [← ofNat?_eq_some_iff, ofUInt32_eq]
  cases ofNat? w.toNat <;> simp

/-- There is an index for each number from 1 to 5, which fits into 8 bits. -/
theorem Index.lawful : bounded.Lawful 1 5 where
  exists_val_iff n := by
    constructor
    · rintro ⟨i, rfl⟩
      exact ⟨i.one_le, i.le_five⟩
    · rintro ⟨hpos, hn⟩
      exact ⟨⟨n, hpos, hn⟩, rfl⟩
  parse_iff _ _ _ := parse_eq_ok_iff
  ofUInt32_iff _ _ := ofUInt32_eq_ok_iff
  ofWord_iff _ _ := ofNat?_eq_some_iff
  fits i := by
    have hword : i.val < UInt8.size := Nat.lt_of_le_of_lt i.le_five (by decide)
    exact ⟨⟨.ofNat i.val, UInt32.toNat_ofNat_of_lt' i.val_lt_size⟩,
      ⟨.ofNat i.val, UInt8.toNat_ofNat_of_lt' hword⟩⟩
  ofJson_iff _ _ := ofJson?_eq_some_iff
  toJson_eq _ := rfl
  text_eq _ := rfl

/-! ### Lines with an address and an index -/

namespace Instruction

open Token

variable {cfg : Config} {m : Mnemonic} {n₁ n₂ : Nat} {t₁ t₂ : String}

/-- What an opcode with operands takes starts with an address and an index. -/
theorem exists_takeAddressIndex {lineEnd : Nat} {ts rest : List Token} {ins : Instruction}
    (h : takeOperands cfg lineEnd ts m = .ok (ins, rest)) (hm : m.category ≠ .onlyName) :
    ∃ a i us, takeAddressIndex cfg lineEnd ts = .ok ((a, i), us) := by
  cases m with
  | onlyName op => exact absurd rfl hm
  | field op =>
    obtain ⟨a, i, f, us, -, hops, -⟩ := takeOperands_field_eq_ok_iff.mp h
    exact ⟨a, i, us, hops⟩
  | nonField op =>
    obtain ⟨a, i, -, hops⟩ := takeOperands_nonField_eq_ok_iff.mp h
    exact ⟨a, i, rest, hops⟩
  | arg op =>
    obtain ⟨a, i, g, us, -, hops, -⟩ := takeOperands_arg_eq_ok_iff.mp h
    exact ⟨a, i, us, hops⟩

theorem toList_bare (m : Mnemonic) (t₁ t₂ : String) :
    (s!"{m.name} {t₁},{t₂}").toList = m.spelling ++ (' ' :: t₁.toList ++ ',' :: t₂.toList) := by
  simp [Mnemonic.name, toString]

/-- The pieces of a line with two numbers behind the opcode. -/
def barePieces (m : Mnemonic) (t₁ t₂ : String) : List (Lexeme × List Char) :=
  [(.word m.name, m.spelling), (.space, [' ']), (.number t₁, t₁.toList), (.comma, [',']),
    (.number t₂, t₂.toList)]

/-- The tokens of such a line are those of its pieces. -/
theorem tiles_bare (h₁ : Text.Numeral n₁ t₁.toList) (h₂ : Text.Numeral n₂ t₂.toList) :
    Tiles cfg 0 (s!"{m.name} {t₁},{t₂}").toList (lay 0 (barePieces m t₁ t₂)) := by
  have hd₁ : (Lexeme.number t₁).SpelledBy cfg t₁.toList := ⟨h₁.isNumeral, by simp⟩
  have hd₂ : (Lexeme.number t₂).SpelledBy cfg t₂.toList := ⟨h₂.isNumeral, by simp⟩
  have hspace : Lexeme.space.SpelledBy cfg [' '] := ⟨by simp, by simp⟩
  have hoperands := (((Cut.nil.cons hd₂).cons (l := .comma) rfl).cons hd₁).cons hspace
  have hcut := hoperands.cons (m.namedBy_spelling cfg).spelledBy
  have htiles := tiles_lay hcut.spelled (by simp [Lexeme.glues]) 0
  rw [hcut.cover] at htiles
  rw [toList_bare]
  simpa [barePieces] using htiles

/-- A line is read only if its numbers are those of an address and an index. -/
theorem exists_of_parse_bare {ins : Instruction} (hm : m.category ≠ .onlyName)
    (h₁ : Text.Numeral n₁ t₁.toList) (h₂ : Text.Numeral n₂ t₂.toList)
    (h : parse cfg s!"{m.name} {t₁},{t₂}" = .ok ins) :
    ∃ (a : Address) (i : Index), a.val = n₁ ∧ i.val = n₂ := by
  obtain ⟨ts, hts, hread⟩ := parse_eq_ok_iff.mp h
  obtain rfl := hts.eq_of_tiles (tiles_bare h₁ h₂)
  -- no space is at an end of the line, so nothing is trimmed off
  have htrim : trimSpaces (lay 0 (barePieces m t₁ t₂)) = lay 0 (barePieces m t₁ t₂) := by
    simp [trimSpaces, barePieces, lay, front?]
  rw [htrim, ite_self] at hread
  obtain ⟨_, _, text, hsplit, hword, hspelling, hops⟩ := ofTokens_eq_ok_iff.mp hread
  obtain ⟨rfl, rfl⟩ := List.cons.inj hsplit
  obtain rfl : m.name = text := Lexeme.word.inj hword
  have hmnemonic : ins.mnemonic = m := by
    apply Mnemonic.name_injective
    rw [Mnemonic.name, ← hspelling, String.ofList_toList]
  obtain ⟨a, i, us, htake⟩ := exists_takeAddressIndex hops (by rwa [hmnemonic])
  obtain ⟨gap, u₁, comma, u₂, x₁, x₂, hlay, -, ⟨hu₁, ha⟩, -, hu₂, hi⟩ :=
    takeAddressIndex_eq_ok_iff.mp htake
  cases hlay
  obtain rfl : t₁ = x₁ := Lexeme.number.inj hu₁
  obtain rfl : t₂ = x₂ := Lexeme.number.inj hu₂
  rw [h₁.literal?_eq, Option.some.injEq] at ha
  rw [h₂.literal?_eq, Option.some.injEq] at hi
  exact ⟨a, i, ha.symm, hi.symm⟩

/-- A line with the number of an address and that of an index is read, with no other operand. -/
theorem parse_bare {a : Address} {i : Index} (hm : m.category ≠ .onlyName)
    (h₁ : Text.Numeral a.val t₁.toList) (h₂ : Text.Numeral i.val t₂.toList) :
    ∃ ins, parse cfg s!"{m.name} {t₁},{t₂}" = .ok ins ∧ ins.mnemonic = m ∧
      ins.operands = [.address a, .index i] := by
  have hbehind : BehindOperands cfg m a i (s!"{m.name} {t₁},{t₂}").toList := by
    rw [toList_bare]
    exact ⟨_, _, rfl, m.namedBy_spelling cfg, [' '], t₁.toList, t₂.toList, rfl, isGap_singleton,
      h₁, h₂⟩
  obtain ⟨ins, hcomplete, hins⟩ := hbehind.exists_bare hm
  have hread := hcomplete.parse_eq (l := []) isMargin_nil
  rw [List.nil_append, String.ofList_toList] at hread
  exact ⟨ins, hread, hins⟩

end Instruction

/-! ### Addresses and indices -/

/-- **Ways of making an operand.** An address is made of a number by every way or by none, whatever
    zeros the literal has in front, and so is an index: of the literal, of the word of 32 bits, of
    the word of 16 bits or of 8, of the document, and of the line of an opcode with operands that
    has the literal for one of its two numbers. -/
theorem Operand.sources_agree (cfg : Config) {m : Mnemonic} (hm : m.category ≠ .onlyName)
    (a : Address) (i : Index) {n : Nat} {t : String} (ht : Text.Numeral n t.toList)
    (column : Nat) :
    Address.bounded.Agree 0 3999 n t column (Instruction.parse cfg s!"{m.name} {t},{i.text}")
        (fun v ins => ins.mnemonic = m ∧ ins.operands = [.address v, .index i]) ∧
      Index.bounded.Agree 1 5 n t column (Instruction.parse cfg s!"{m.name} {a.text},{t}")
        (fun v ins => ins.mnemonic = m ∧ ins.operands = [.address a, .index v]) := by
  constructor
  · refine Address.lawful.agree ht ?_ ?_ ?_
    · rintro ⟨ins, hread⟩
      obtain ⟨v, -, hv, -⟩ := Instruction.exists_of_parse_bare hm ht i.numeral_text hread
      exact ⟨v, hv⟩
    · rintro v rfl
      exact Instruction.parse_bare hm ht i.numeral_text
    · rintro v v' ins ⟨-, hv⟩ ⟨-, hv'⟩
      simpa [hv] using hv'
  · refine Index.lawful.agree ht ?_ ?_ ?_
    · rintro ⟨ins, hread⟩
      obtain ⟨-, v, -, hv⟩ := Instruction.exists_of_parse_bare hm a.numeral_text ht hread
      exact ⟨v, hv⟩
    · rintro v rfl
      exact Instruction.parse_bare hm a.numeral_text ht
    · rintro v v' ins ⟨-, hv⟩ ⟨-, hv'⟩
      simpa [hv] using hv'

/-- A number that is an address but no index, although its lowest eight bits are those of 1. -/
theorem Operand.sources_agree_wide :
    (Mnemonic.field .add).category ≠ .onlyName ∧ Text.Numeral 257 "0257".toList ∧
      (∃ ins, Instruction.parse {} "ADD 0257,1" = .ok ins ∧
        ins.operands = [.address ⟨257, by decide⟩, .index ⟨1, by decide, by decide⟩]) ∧
      ¬ (∃ v, (Json.parse "257").bind Index.ofJson? = some v) ∧
      ¬ ∃ ins, Instruction.parse {} "ADD 4,0257" = .ok ins := by
  have hcategory : (Mnemonic.field .add).category ≠ .onlyName := by decide
  have hn : Text.Numeral 257 "0257".toList := Text.numeral_iff.mpr ⟨by decide, by decide⟩
  obtain ⟨haddress, hindex⟩ := Operand.sources_agree {} hcategory ⟨4, by decide⟩
    ⟨1, by decide, by decide⟩ hn 5
  have hbounds : ¬ (1 ≤ 257 ∧ 257 ≤ 5) := by decide
  refine ⟨hcategory, hn, ?_, ?_, ?_⟩
  · obtain ⟨ins, hread, -, hoperands⟩ := ((haddress.same ⟨257, by decide⟩).out 0 5).mp rfl
    exact ⟨ins, hread, hoperands⟩
  · exact fun hmade => hbounds ((hindex.made_iff.out 4 0).mp hmade)
  · exact fun hread => hbounds ((hindex.made_iff.out 5 0).mp hread)

end MixAsm
