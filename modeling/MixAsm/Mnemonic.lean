import MixAsm.Opcode

namespace MixAsm

/-!
# Mnemonics

The closed table: every opcode with its category, its name, and the way back from a name.

* `Mnemonic.all` — the whole table, grouped by category;
* `Mnemonic.ofName?` — the opcode that a name spells;
* `Mnemonic.ofSpelling?_spelling` — every opcode is found under its own spelling, so no two
  opcodes share one and none is missing.
-/

/-- What may follow an opcode on its line. -/
inductive Category
  | onlyName | field | nonField | arg
  deriving DecidableEq, Repr

namespace Category

/-- Every category, in table order. -/
def all : List Category := [onlyName, field, nonField, arg]

/-- The category's name in listings and on the command line. -/
def name : Category → String
  | onlyName => "only-name"
  | field => "field"
  | nonField => "non-field"
  | arg => "arg"

/-- Every category is listed. -/
theorem mem_all (c : Category) : c ∈ all := by cases c <;> decide

end Category

/-- An opcode of the table. -/
inductive Mnemonic
  | onlyName (op : NameOp)
  | field (op : FieldOp)
  | nonField (op : NonFieldOp)
  | arg (op : ArgOp)
  deriving DecidableEq, Repr

namespace Mnemonic

/-- What may follow the opcode on its line. -/
def category : Mnemonic → Category
  | onlyName _ => .onlyName
  | field _ => .field
  | nonField _ => .nonField
  | arg _ => .arg

/-- The letters and digits that name the opcode. -/
def spelling : Mnemonic → List Char
  | onlyName op => op.spelling
  | field op => op.spelling
  | nonField op => op.spelling
  | arg op => op.spelling

/-- The opcode's canonical name. -/
def name (m : Mnemonic) : String := String.ofList m.spelling

/-- The register that the opcode names, if it names one. -/
def register? : Mnemonic → Option Register
  | field (.load r _) | field (.store (.register r)) | field (.compare r) => some r
  | nonField (.jump (.register r _)) | nonField (.enter r _) => some r
  | nonField (.increment r) | nonField (.decrement r) => some r
  | _ => none

/-- The whole table, grouped by category. -/
def all : List Mnemonic :=
  NameOp.all.map onlyName ++ FieldOp.all.map field ++ NonFieldOp.all.map nonField
    ++ ArgOp.all.map arg

/-- Every opcode is in the table. -/
theorem mem_all (m : Mnemonic) : m ∈ all := by
  cases m <;>
    simp [all, NameOp.mem_all, FieldOp.mem_all, NonFieldOp.mem_all, ArgOp.mem_all]

/-- The opcode that the characters `w` spell. -/
def ofSpelling? (w : List Char) : Option Mnemonic :=
  all.find? fun m => m.spelling == w

/-- The opcode that the name `w` stands for. -/
def ofName? (w : String) : Option Mnemonic := ofSpelling? w.toList

/-- Every opcode of the table is found under its own spelling. -/
theorem ofSpelling?_spelling (m : Mnemonic) : ofSpelling? m.spelling = some m := by
  have h : ∀ m ∈ all, ofSpelling? m.spelling = some m := by decide +kernel
  exact h m (mem_all m)

end Mnemonic

end MixAsm
