import MixAsm.Instruction.Parser
import MixAsm.Proofs.Instruction.Grammar

namespace MixAsm

open Token

/-!
# Where reading stops

Reading goes from left to right over the tokens of a line, and stops in front of the first one that
does not fit. What is in front of it is the beginning of an instruction, and what was expected there
is what has to come next. All of this is said of characters and tokens, without the reader.

* `Reaches` — the characters behind which something is expected;
* `Instruction.Complete` — the characters of a whole instruction;
* `Instruction.Refuses` — the tokens that an instruction cannot be followed by;
* `Stops` — where reading stops, and with which error.
-/

/-! ### What is expected -/

/-- The kind of the operand that is expected. -/
def Expected.kind? : Expected → Option OperandKind
  | address => some .address
  | index => some .index
  | fieldStart | fieldEnd => some .fields
  | argument => some .argument
  | _ => none

/-- The punctuation mark that is expected. -/
def Expected.mark? : Expected → Option Lexeme
  | comma => some .comma
  | fieldColon => some .colon
  | fieldClose | argumentClose => some .rightParen
  | _ => none

/-- Is the lexeme what is expected? -/
def Expected.fits (x : Expected) : Lexeme → Bool
  | .word _ => x = mnemonic
  | .number _ => x.kind?.isSome
  | .space => x = space || x = singleSpace
  | l => x.mark? = some l

/-- Only a number is an operand. -/
theorem Expected.fits_eq_false {x : Expected} {kind : OperandKind} {l : Lexeme}
    (hx : x.kind? = some kind) (hl : ∀ text, l ≠ .number text) : x.fits l = false := by
  cases l with
  | number text => exact absurd rfl (hl text)
  | _ => cases x <;> first | rfl | cases hx

/-- Only a space is a gap. -/
theorem Expected.space_fits_eq_false {l : Lexeme} (hl : l ≠ .space) : space.fits l = false := by
  cases l with
  | space => exact absurd rfl hl
  | _ => rfl

/-- Only a word is a name. -/
theorem Expected.mnemonic_fits_eq_false {l : Lexeme} (hl : ∀ text, l ≠ .word text) :
    mnemonic.fits l = false := by
  cases l with
  | word text => exact absurd rfl (hl text)
  | _ => rfl

/-- Only the mark that is expected is that mark. -/
theorem Expected.eq_of_fits {x : Expected} {l l' : Lexeme} (hx : x.mark? = some l)
    (hl' : x.fits l') : l' = l := by
  cases x <;> cases hx <;> cases l' <;> simp_all [fits, kind?, mark?]

/-! ### The grammar with a place in it -/

/-- The name of the opcode with an address and an index behind it. -/
def BehindOperands (cfg : Config) (m : Mnemonic) (a : Address) (i : Index) (p : List Char) : Prop :=
  ∃ w t, p = w ++ t ∧ m.NamedBy cfg w ∧ OperandsWritten cfg a i t

/-- Behind the characters something is expected. The numbers in a group may have any value, as
    their bounds are looked at once the group is closed. -/
inductive Reaches (cfg : Config) : Expected → List Char → Prop
  | mnemonic : Reaches cfg .mnemonic []
  | space {m : Mnemonic} {w : List Char} (hname : m.NamedBy cfg w)
      (hm : m.category ≠ .onlyName) : Reaches cfg .space w
  | address {m : Mnemonic} {w s : List Char} (hname : m.NamedBy cfg w)
      (hm : m.category ≠ .onlyName) (hgap : IsGap cfg s) : Reaches cfg .address (w ++ s)
  | comma {m : Mnemonic} {w s d : List Char} {a : Address} (hname : m.NamedBy cfg w)
      (hm : m.category ≠ .onlyName) (hgap : IsGap cfg s) (ha : Text.Numeral a.val d) :
      Reaches cfg .comma (w ++ s ++ d)
  | index {m : Mnemonic} {w s d : List Char} {a : Address} (hname : m.NamedBy cfg w)
      (hm : m.category ≠ .onlyName) (hgap : IsGap cfg s) (ha : Text.Numeral a.val d) :
      Reaches cfg .index (w ++ s ++ d ++ [','])
  | fieldStart {op : FieldOp} {a : Address} {i : Index} {p : List Char}
      (hops : BehindOperands cfg (.field op) a i p) : Reaches cfg .fieldStart (p ++ ['('])
  | fieldColon {op : FieldOp} {a : Address} {i : Index} {p d : List Char}
      (hops : BehindOperands cfg (.field op) a i p) (hd : Text.isNumeral d) :
      Reaches cfg .fieldColon (p ++ ['('] ++ d)
  | fieldEnd {op : FieldOp} {a : Address} {i : Index} {p d : List Char}
      (hops : BehindOperands cfg (.field op) a i p) (hd : Text.isNumeral d) :
      Reaches cfg .fieldEnd (p ++ ['('] ++ d ++ [':'])
  | fieldClose {op : FieldOp} {a : Address} {i : Index} {p d₁ d₂ : List Char}
      (hops : BehindOperands cfg (.field op) a i p) (hd₁ : Text.isNumeral d₁)
      (hd₂ : Text.isNumeral d₂) : Reaches cfg .fieldClose (p ++ ['('] ++ d₁ ++ [':'] ++ d₂)
  | argument {op : ArgOp} {a : Address} {i : Index} {p : List Char}
      (hops : BehindOperands cfg (.arg op) a i p) : Reaches cfg .argument (p ++ ['('])
  | argumentClose {op : ArgOp} {a : Address} {i : Index} {p d : List Char}
      (hops : BehindOperands cfg (.arg op) a i p) (hd : Text.isNumeral d) :
      Reaches cfg .argumentClose (p ++ ['('] ++ d)

/-! ### Complete instructions -/

namespace Instruction

/-- The characters are the name of the instruction's opcode and its operands. -/
def Complete (cfg : Config) (ins : Instruction) (p : List Char) : Prop :=
  ∃ w t, p = w ++ t ∧ ins.mnemonic.NamedBy cfg w ∧ TailWritten cfg ins t

end Instruction

namespace BehindOperands

variable {cfg : Config} {a : Address} {i : Index} {p g : List Char}

/-- With a group behind its operands an opcode of fields is complete. -/
theorem complete_field {op : FieldOp} {f : FieldSpec} (h : BehindOperands cfg (.field op) a i p)
    (hg : f.Written g) : (Instruction.field op a i f).Complete cfg (p ++ g) := by
  obtain ⟨w, t, rfl, hname, ht⟩ := h
  exact ⟨w, t ++ g, by simp, hname, .field ht hg⟩

/-- With a group behind its operands an opcode of arguments is complete. -/
theorem complete_arg {op : ArgOp} {n : ArgSpec} (h : BehindOperands cfg (.arg op) a i p)
    (hg : n.Written g) : (Instruction.arg op a i n).Complete cfg (p ++ g) := by
  obtain ⟨w, t, rfl, hname, ht⟩ := h
  exact ⟨w, t ++ g, by simp, hname, .arg ht hg⟩

/-- An opcode that takes operands is complete without a group, and has no other operands then. -/
theorem exists_bare {m : Mnemonic} (h : BehindOperands cfg m a i p)
    (hm : m.category ≠ .onlyName) :
    ∃ ins : Instruction, ins.Complete cfg p ∧ ins.mnemonic = m ∧
      ins.operands = [.address a, .index i] := by
  cases m with
  | onlyName op => exact absurd rfl hm
  | field op => exact ⟨.field op a i .default, by simpa using h.complete_field .default, rfl, rfl⟩
  | nonField op =>
    obtain ⟨w, t, rfl, hname, ht⟩ := h
    exact ⟨.nonField op a i, ⟨w, t, rfl, hname, .nonField ht⟩, rfl, rfl⟩
  | arg op => exact ⟨.arg op a i .default, by simpa using h.complete_arg .default, rfl, rfl⟩

theorem exists_complete {m : Mnemonic} (h : BehindOperands cfg m a i p)
    (hm : m.category ≠ .onlyName) : ∃ ins : Instruction, ins.Complete cfg p := by
  obtain ⟨ins, hins, -⟩ := h.exists_bare hm
  exact ⟨ins, hins⟩

end BehindOperands

namespace Instruction

/-- Is there no group that could still follow the instruction? -/
def isClosed : Instruction → Bool
  | onlyName _ | nonField .. | field _ _ _ (.explicit _) | arg _ _ _ (.explicit _) => true
  | field _ _ _ .default | arg _ _ _ .default => false

/-- The instruction cannot be followed by the tokens: no group can follow it, or no group does, or
    a group of the other kind. -/
inductive Refuses : Instruction → List Token → Leftover → Prop
  | closed {ins : Instruction} {t : Token} {ts : List Token} (h : ins.isClosed) :
      Refuses ins (t :: ts) (.lexeme t.lexeme)
  | noGroup {ins : Instruction} {t : Token} {ts : List Token} (h : t.lexeme ≠ .leftParen) :
      Refuses ins (t :: ts) (.lexeme t.lexeme)
  | argument {op : FieldOp} {a : Address} {i : Index} {t : Token} {ts : List Token}
      (ht : t.lexeme = .leftParen) (hts : startsNumberThen .rightParen ts) :
      Refuses (field op a i .default) (t :: ts) .argumentGroup
  | fields {op : ArgOp} {a : Address} {i : Index} {t : Token} {ts : List Token}
      (ht : t.lexeme = .leftParen) (hts : startsNumberThen .colon ts) :
      Refuses (arg op a i .default) (t :: ts) .fieldGroup

end Instruction

/-! ### Where reading stops -/

/-- The literal has no value that an operand of the kind can take. -/
def OperandKind.Rejects (kind : OperandKind) (text : String) : Prop :=
  ∀ v, Text.literal? text.toList = some v → ¬ (kind.min ≤ v ∧ v ≤ kind.max)

/-- Reading stops behind the characters, in front of the tokens: something else than what is
    expected there is found, a space that is too wide, a word that names no opcode or a literal that
    is out of range, or the instruction is complete and cannot be followed by the tokens. -/
inductive Stops (cfg : Config) (lineEnd : Nat) : List Char → List Token → ParseError → Prop
  | malformed {x : Expected} {p : List Char} {rest : List Token} (hreach : Reaches cfg x p)
      (hmiss : ∀ l ∈ front? rest, x.fits l = false) :
      Stops cfg lineEnd p rest (malformed lineEnd x rest)
  | spaces {p : List Char} {t : Token} {rest : List Token} (hreach : Reaches cfg .space p)
      (hspace : t.lexeme = .space) (hcollapse : cfg.collapseSpaces = false) (hwidth : 1 < t.width) :
      Stops cfg lineEnd p (t :: rest) ⟨t.column, .malformed .singleSpace (.spaces t.width)⟩
  | unknownMnemonic {t : Token} {rest : List Token} {word : String}
      (hword : t.lexeme = .word word) (hname : Mnemonic.ofName? word = none) :
      Stops cfg lineEnd [] (t :: rest) ⟨t.column, .unknownMnemonic word⟩
  | outOfRange {x : Expected} {kind : OperandKind} {p : List Char} {t : Token} {rest : List Token}
      {text : String} (hreach : Reaches cfg x p) (hkind : x.kind? = some kind)
      (hnumber : t.lexeme = .number text) (hvalue : kind.Rejects text) :
      Stops cfg lineEnd p (t :: rest) ⟨t.column, .outOfRange kind text⟩
  | unexpected {ins : Instruction} {p : List Char} {rest : List Token} {leftover : Leftover}
      (hcomplete : ins.Complete cfg p) (hrefuses : ins.Refuses rest leftover) :
      Stops cfg lineEnd p rest ⟨columnOf lineEnd rest, .unexpected ins.mnemonic leftover⟩

/-- What cannot follow an instruction is found behind a complete one. -/
theorem Stops.exists_of_unexpected {cfg : Config} {lineEnd c : Nat} {p : List Char}
    {rest : List Token} {m : Mnemonic} {leftover : Leftover}
    (h : Stops cfg lineEnd p rest ⟨c, .unexpected m leftover⟩) :
    ∃ ins : Instruction, ins.mnemonic = m ∧ ins.Complete cfg p ∧ ins.Refuses rest leftover := by
  generalize he : (⟨c, .unexpected m leftover⟩ : ParseError) = e at h
  cases h with
  | unexpected hcomplete hrefuses =>
    cases he
    exact ⟨_, rfl, hcomplete, hrefuses⟩
  | _ => cases he

/-- Whatever reading stops for, it blames the token that it stops in front of, or the end of the
    line. -/
theorem Stops.column_eq {cfg : Config} {lineEnd : Nat} {p : List Char} {rest : List Token}
    {e : ParseError} (h : Stops cfg lineEnd p rest e) :
    e.column = columnOf lineEnd rest := by
  cases h <;> rfl

end MixAsm
