import Mathlib.Data.List.Basic
import MixAsm.Mnemonic

namespace MixAsm

/-!
# The grammar of names

The names of opcodes as the language definition gives them: productions that put words, optional
parts and other nonterminals together. The grammar knows nothing of the opcodes, and no list of
names is kept beside it. It is compared here with the spellings, one nonterminal at a time.

* `Names.production` — the right side of each nonterminal;
* `Names.Derives` — the words that a phrase derives;
* `Names.Of` — the words that the nonterminal of a category derives;
* `Names.of_iff` — they are the names of the opcodes in the category.
-/

namespace Names

/-- The nonterminals that names are made of. -/
inductive Nonterminal
  | onlyInstructionName | fieldInstructionName | nonFieldInstructionName | argInstructionName
  | jumpInstructionArgs | registerCondition | register
  deriving DecidableEq, Repr

/-- What the right side of a production is made of. -/
inductive Phrase
  | word (text : String)
  | ref (n : Nonterminal)
  | alt (p q : Phrase)
  | seq (p q : Phrase)
  | opt (p : Phrase)
  deriving DecidableEq, Repr

/-- Either of two phrases. -/
instance : OrOp Phrase := ⟨.alt⟩

/-- Two phrases, one behind the other. -/
instance : Append Phrase := ⟨.seq⟩

open Phrase (word ref opt)

/-- The right side of each nonterminal. -/
def production : Nonterminal → Phrase
  | .onlyInstructionName => word "NOP" ||| word "HALT" ||| word "NUM" ||| word "CHAR"
  | .fieldInstructionName =>
    word "LD" ++ ref .register ++ opt (word "N")
      ||| word "ST" ++ (ref .register ||| word "J" ||| word "Z")
      ||| word "ADD" ||| word "SUB" ||| word "MUL" ||| word "DIV"
      ||| word "CMP" ++ ref .register
  | .nonFieldInstructionName =>
    word "J" ++ ref .jumpInstructionArgs
      ||| (word "ENT" ||| word "ENN" ||| word "INC" ||| word "DEC") ++ ref .register
      ||| word "SLA" ||| word "SRA" ||| word "SLAX" ||| word "SRAX" ||| word "SLC" ||| word "SRC"
  | .argInstructionName =>
    word "IN" ||| word "OUT" ||| word "IOC" ||| word "JRED" ||| word "JBUS" ||| word "MOVE"
  | .jumpInstructionArgs =>
    word "MP" ||| word "SJ" ||| word "OV" ||| word "NOV"
      ||| (word "L" ||| word "G") ++ opt (word "E") ||| word "E" ||| word "NE"
      ||| ref .register ++ ref .registerCondition
  | .registerCondition =>
    word "N" ||| word "Z" ||| word "P" ||| word "NN" ||| word "NZ" ||| word "NP"
  | .register =>
    word "A" ||| word "X" ||| word "1" ||| word "2" ||| word "3" ||| word "4" ||| word "5"

/-- The words that a phrase derives. -/
inductive Derives : Phrase → List Char → Prop
  | word (text : String) : Derives (.word text) text.toList
  | ref {n : Nonterminal} {w : List Char} (h : Derives (production n) w) : Derives (.ref n) w
  | left {p q : Phrase} {w : List Char} (h : Derives p w) : Derives (.alt p q) w
  | right {p q : Phrase} {w : List Char} (h : Derives q w) : Derives (.alt p q) w
  | seq {p q : Phrase} {u v : List Char} (hp : Derives p u) (hq : Derives q v) :
      Derives (.seq p q) (u ++ v)
  | absent {p : Phrase} : Derives (.opt p) []
  | present {p : Phrase} {w : List Char} (h : Derives p w) : Derives (.opt p) w

/-- The nonterminal that the names of a category come from. -/
def nonterminal : Category → Nonterminal
  | .onlyName => .onlyInstructionName
  | .field => .fieldInstructionName
  | .nonField => .nonFieldInstructionName
  | .arg => .argInstructionName

/-- The nonterminal of the category derives the word. -/
def Of (c : Category) (w : String) : Prop := Derives (ref (nonterminal c)) w.toList

/-! ### Phrases taken apart -/

variable {p q : Phrase} {n : Nonterminal} {w : List Char}

@[simp] theorem derives_word_iff {text : String} : Derives (word text) w ↔ text.toList = w := by
  constructor
  · intro h
    cases h
    rfl
  · rintro rfl
    exact .word text

theorem derives_ref_iff : Derives (ref n) w ↔ Derives (production n) w := by
  constructor
  · intro h
    cases h with
    | ref h => exact h
  · exact .ref

@[simp] theorem derives_alt_iff : Derives (p ||| q) w ↔ Derives p w ∨ Derives q w := by
  constructor
  · intro h
    cases h with
    | left h => exact .inl h
    | right h => exact .inr h
  · rintro (h | h)
    · exact .left h
    · exact .right h

@[simp] theorem derives_append_iff :
    Derives (p ++ q) w ↔ ∃ u, Derives p u ∧ ∃ v, Derives q v ∧ u ++ v = w := by
  constructor
  · intro h
    cases h with
    | seq hp hq => exact ⟨_, hp, _, hq, rfl⟩
  · rintro ⟨u, hp, v, hq, rfl⟩
    exact .seq hp hq

@[simp] theorem derives_opt_iff : Derives (opt p) w ↔ [] = w ∨ Derives p w := by
  constructor
  · intro h
    cases h with
    | absent => exact .inl rfl
    | present h => exact .inr h
  · rintro (rfl | h)
    · exact .absent
    · exact .present h

/-! ### Parts of names -/

/-- Something holds of a value exactly if it holds of one in a list of all values. -/
theorem exists_iff_exists_mem {α : Type} {l : List α} {P : α → Prop} (hall : ∀ a, a ∈ l) :
    (∃ a, P a) ↔ ∃ a ∈ l, P a := by
  simp only [hall, true_and]

@[simp] theorem derives_register_iff :
    Derives (ref .register) w ↔ ∃ r : Register, [r.symbol] = w := by
  rw [derives_ref_iff, exists_iff_exists_mem Register.mem_all]
  simp [production, Register.all, Register.symbol, or_assoc]

@[simp] theorem derives_registerCondition_iff :
    Derives (ref .registerCondition) w ↔ ∃ t : SignTest, t.spelling = w := by
  rw [derives_ref_iff, exists_iff_exists_mem SignTest.mem_all]
  simp [production, SignTest.all, SignTest.spelling, or_assoc]

@[simp] theorem derives_jumpInstructionArgs_iff :
    Derives (ref .jumpInstructionArgs) w ↔ ∃ c : JumpCondition, c.spelling = w := by
  rw [derives_ref_iff, exists_iff_exists_mem JumpCondition.mem_all]
  -- the production has `LE` behind `G`, where the list has it in front
  simp [production, JumpCondition.all, JumpCondition.plain, JumpCondition.spelling,
    Register.mem_all, SignTest.mem_all, exists_or, or_and_right, and_or_left, or_assoc,
    or_left_comm]

/-! ### Names -/

theorem derives_onlyInstructionName_iff :
    Derives (ref .onlyInstructionName) w ↔ ∃ op : NameOp, op.spelling = w := by
  rw [derives_ref_iff, exists_iff_exists_mem NameOp.mem_all]
  simp [production, NameOp.all, NameOp.spelling, or_assoc]

theorem derives_fieldInstructionName_iff :
    Derives (ref .fieldInstructionName) w ↔ ∃ op : FieldOp, op.spelling = w := by
  rw [derives_ref_iff, exists_iff_exists_mem FieldOp.mem_all]
  simp [production, FieldOp.all, FieldOp.spelling, StoreSource.spelling, Register.mem_all,
    exists_or, or_and_right, and_or_left, or_assoc]

theorem derives_nonFieldInstructionName_iff :
    Derives (ref .nonFieldInstructionName) w ↔ ∃ op : NonFieldOp, op.spelling = w := by
  rw [derives_ref_iff, exists_iff_exists_mem NonFieldOp.mem_all]
  simp [production, NonFieldOp.all, NonFieldOp.spelling, Shift.all, Shift.spelling,
    Register.mem_all, JumpCondition.mem_all, exists_or, or_and_right, and_or_left, or_assoc]

theorem derives_argInstructionName_iff :
    Derives (ref .argInstructionName) w ↔ ∃ op : ArgOp, op.spelling = w := by
  rw [derives_ref_iff, exists_iff_exists_mem ArgOp.mem_all]
  simp [production, ArgOp.all, ArgOp.spelling, or_assoc]

/-- A word is an opcode's name exactly if it has the characters of the spelling. -/
theorem name_eq_iff {m : Mnemonic} {w : String} : m.name = w ↔ m.spelling = w.toList := by
  rw [Mnemonic.name, ← String.toList_inj, String.toList_ofList]

/-- An opcode is one of the opcodes of some category. -/
theorem exists_mnemonic_iff {P : Mnemonic → Prop} :
    (∃ m, P m) ↔ (∃ op, P (.onlyName op)) ∨ (∃ op, P (.field op)) ∨ (∃ op, P (.nonField op)) ∨
      ∃ op, P (.arg op) := by
  constructor
  · rintro ⟨m, h⟩
    cases m with
    | onlyName op => exact .inl ⟨op, h⟩
    | field op => exact .inr (.inl ⟨op, h⟩)
    | nonField op => exact .inr (.inr (.inl ⟨op, h⟩))
    | arg op => exact .inr (.inr (.inr ⟨op, h⟩))
  · rintro (⟨op, h⟩ | ⟨op, h⟩ | ⟨op, h⟩ | ⟨op, h⟩) <;> exact ⟨_, h⟩

/-- The nonterminal of a category derives the spellings of the opcodes in it. -/
theorem derives_nonterminal_iff {c : Category} :
    Derives (ref (nonterminal c)) w ↔ ∃ m : Mnemonic, m.category = c ∧ m.spelling = w := by
  rw [exists_mnemonic_iff]
  cases c <;>
    simp [nonterminal, Mnemonic.category, Mnemonic.spelling, derives_onlyInstructionName_iff,
      derives_fieldInstructionName_iff, derives_nonFieldInstructionName_iff,
      derives_argInstructionName_iff]

/-- **Names of a category.** The words that the nonterminal of a category derives are the names of
    the opcodes in the category. -/
theorem of_iff {c : Category} {w : String} :
    Of c w ↔ ∃ m : Mnemonic, m.category = c ∧ m.name = w := by
  simp only [Of, derives_nonterminal_iff, name_eq_iff]

end Names

end MixAsm
