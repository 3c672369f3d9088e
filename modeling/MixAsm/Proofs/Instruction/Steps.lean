import MixAsm.Instruction.Parser
import MixAsm.Proofs.Operand.Literal

namespace MixAsm

/-!
# Steps of reading an instruction

When each step of the reader succeeds: the tokens that it takes from the front, and what it makes
of them. A step never looks behind the tokens that it takes, but for the one that tells whether a
group in parentheses follows.

* `Token.takeAddressIndex_eq_ok_iff` — a space, a number, a comma and a number;
* `Token.takeFieldSpec_eq_ok_iff`, `Token.takeArgSpec_eq_ok_iff` — the optional groups;
* `Instruction.ofTokens_eq_ok_iff` — a whole line.
-/

/-- A name stands for an opcode exactly if it is the opcode's spelling. -/
theorem Mnemonic.ofName?_eq_some_iff {word : String} {m : Mnemonic} :
    Mnemonic.ofName? word = some m ↔ word.toList = m.spelling := by
  constructor
  · intro h
    have := List.find?_some h
    exact (eq_of_beq this).symm
  · intro h
    rw [Mnemonic.ofName?, h, Mnemonic.ofSpelling?_spelling]

/-- The name of an opcode stands for it. -/
theorem Mnemonic.ofName?_name (m : Mnemonic) : Mnemonic.ofName? m.name = some m :=
  ofName?_eq_some_iff.mpr String.toList_ofList

/-- No two opcodes share a name. -/
theorem Mnemonic.name_injective : Function.Injective name := by
  intro m m' h
  have hfound := ofName?_name m
  rw [h, ofName?_name] at hfound
  exact (Option.some.inj hfound).symm

/-- A word names an opcode exactly if it is the opcode's spelling. -/
theorem Mnemonic.classify_eq_ok_iff {word : String} {column : Nat} {m : Mnemonic} :
    Mnemonic.classify word column = .ok m ↔ word.toList = m.spelling := by
  rw [← ofName?_eq_some_iff, Mnemonic.classify]
  split
  · next h => rw [h, Option.some.injEq, Except.ok.injEq]
  · next h => simp [h]

namespace Token

variable {cfg : Config} {lineEnd : Nat} {expected : Expected} {ts rest : List Token}

/-! ### Single steps -/

/-- What is said of the token in front of `rest` is said of the first token. -/
private theorem exists_front_iff {t : Token} {us : List Token} {p : Token → Prop} :
    (∃ t', t :: us = t' :: rest ∧ p t') ↔ p t ∧ us = rest := by
  constructor
  · rintro ⟨t', ht, hp⟩
    obtain ⟨rfl, rfl⟩ := List.cons.inj ht
    exact ⟨hp, rfl⟩
  · rintro ⟨hp, rfl⟩
    exact ⟨t, rfl, hp⟩

theorem takeWord_eq_ok_iff {text : String} {column : Nat} :
    takeWord lineEnd expected ts = .ok ((text, column), rest) ↔
      ∃ t, ts = t :: rest ∧ t.lexeme = .word text ∧ t.column = column := by
  cases ts with
  | nil => simp [takeWord]
  | cons t us =>
    rw [takeWord, exists_front_iff]
    split
    · next w hw => simp [hw]
    · next h => simp [show t.lexeme ≠ .word text from h text]

theorem takeNumber_eq_ok_iff {text : String} {column : Nat} :
    takeNumber lineEnd expected ts = .ok ((text, column), rest) ↔
      ∃ t, ts = t :: rest ∧ t.lexeme = .number text ∧ t.column = column := by
  cases ts with
  | nil => simp [takeNumber]
  | cons t us =>
    rw [takeNumber, exists_front_iff]
    split
    · next w hw => simp [hw]
    · next h => simp [show t.lexeme ≠ .number text from h text]

theorem takeLexeme_eq_ok_iff {l : Lexeme} :
    takeLexeme lineEnd l expected ts = .ok rest ↔ ∃ t, ts = t :: rest ∧ t.lexeme = l := by
  cases ts with
  | nil => simp [takeLexeme]
  | cons t us =>
    rw [takeLexeme, exists_front_iff]
    split <;> simp_all

theorem takeGap_eq_ok_iff :
    takeGap cfg lineEnd ts = .ok rest ↔
      ∃ t, ts = t :: rest ∧ t.lexeme = .space ∧ (cfg.collapseSpaces ∨ t.width ≤ 1) := by
  cases ts with
  | nil => simp [takeGap]
  | cons t us =>
    rw [takeGap, exists_front_iff]
    split
    · next h =>
      split
      · next hw => simp_all
      · next hw =>
        rw [Bool.or_eq_true, decide_eq_true_eq] at hw
        simp [h, hw]
    · next h => simp [h]

/-! ### Operands -/

theorem takeAddressIndex_eq_ok_iff {a : Address} {i : Index} :
    takeAddressIndex cfg lineEnd ts = .ok ((a, i), rest) ↔
      ∃ gap t₁ comma t₂ text₁ text₂, ts = gap :: t₁ :: comma :: t₂ :: rest ∧
        (gap.lexeme = .space ∧ (cfg.collapseSpaces ∨ gap.width ≤ 1)) ∧
        (t₁.lexeme = .number text₁ ∧ Text.literal? text₁.toList = some a.val) ∧
        comma.lexeme = .comma ∧
        (t₂.lexeme = .number text₂ ∧ Text.literal? text₂.toList = some i.val) := by
  rw [takeAddressIndex]
  simp only [bind_eq_ok_iff, Prod.exists, takeGap_eq_ok_iff, takeNumber_eq_ok_iff,
    takeLexeme_eq_ok_iff, Address.parse_eq_ok_iff, Index.parse_eq_ok_iff]
  constructor
  · rintro ⟨ts₁, ⟨gap, rfl, hgap⟩, text₁, c₁, ts₂, ⟨t₁, rfl, ht₁, -⟩, a', ha, ts₃,
      ⟨comma, rfl, hcomma⟩, text₂, c₂, ts₄, ⟨t₂, rfl, ht₂, -⟩, i', hi, hr⟩
    cases hr
    exact ⟨gap, t₁, comma, t₂, text₁, text₂, rfl, hgap, ⟨ht₁, ha⟩, hcomma, ht₂, hi⟩
  · rintro ⟨gap, t₁, comma, t₂, text₁, text₂, rfl, hgap, ⟨ht₁, ha⟩, hcomma, ht₂, hi⟩
    exact ⟨_, ⟨gap, rfl, hgap⟩, text₁, _, _, ⟨t₁, rfl, ht₁, rfl⟩, a, ha, _, ⟨comma, rfl, hcomma⟩,
      text₂, _, _, ⟨t₂, rfl, ht₂, rfl⟩, i, hi, rfl⟩

theorem takeFields_eq_ok_iff {f : Fields} :
    takeFields lineEnd ts = .ok (f, rest) ↔
      ∃ t₁ colon t₂ close text₁ text₂, ts = t₁ :: colon :: t₂ :: close :: rest ∧
        (t₁.lexeme = .number text₁ ∧ Text.literal? text₁.toList = some f.left.toNat) ∧
        colon.lexeme = .colon ∧
        (t₂.lexeme = .number text₂ ∧ Text.literal? text₂.toList = some f.right.toNat) ∧
        close.lexeme = .rightParen := by
  rw [takeFields]
  simp only [bind_eq_ok_iff, Prod.exists, takeNumber_eq_ok_iff, takeLexeme_eq_ok_iff,
    Fields.parse_eq_ok_iff]
  constructor
  · rintro ⟨text₁, c₁, ts₁, ⟨t₁, rfl, ht₁, -⟩, ts₂, ⟨colon, rfl, hcolon⟩, text₂, c₂, ts₃,
      ⟨t₂, rfl, ht₂, -⟩, ts₄, ⟨close, rfl, hclose⟩, f', ⟨hl, hr⟩, hf⟩
    cases hf
    exact ⟨t₁, colon, t₂, close, text₁, text₂, rfl, ⟨ht₁, hl⟩, hcolon, ⟨ht₂, hr⟩, hclose⟩
  · rintro ⟨t₁, colon, t₂, close, text₁, text₂, rfl, ⟨ht₁, hl⟩, hcolon, ⟨ht₂, hr⟩, hclose⟩
    exact ⟨text₁, _, _, ⟨t₁, rfl, ht₁, rfl⟩, _, ⟨colon, rfl, hcolon⟩, text₂, _, _,
      ⟨t₂, rfl, ht₂, rfl⟩, _, ⟨close, rfl, hclose⟩, f, ⟨hl, hr⟩, rfl⟩

theorem takeArgument_eq_ok_iff {a : Argument} :
    takeArgument lineEnd ts = .ok (a, rest) ↔
      ∃ t close text, ts = t :: close :: rest ∧
        (t.lexeme = .number text ∧ Text.literal? text.toList = some a.val.toNat) ∧
        close.lexeme = .rightParen := by
  rw [takeArgument]
  simp only [bind_eq_ok_iff, Prod.exists, takeNumber_eq_ok_iff, takeLexeme_eq_ok_iff,
    Argument.parse_eq_ok_iff]
  constructor
  · rintro ⟨text, c, ts₁, ⟨t, rfl, ht, -⟩, ts₂, ⟨close, rfl, hclose⟩, a', ha, hr⟩
    cases hr
    exact ⟨t, close, text, rfl, ⟨ht, ha⟩, hclose⟩
  · rintro ⟨t, close, text, rfl, ⟨ht, ha⟩, hclose⟩
    exact ⟨text, _, _, ⟨t, rfl, ht, rfl⟩, _, ⟨close, rfl, hclose⟩, a, ha, rfl⟩

/-! ### Groups in parentheses -/

/-- A number with the mark `l` behind it is what the test for it looks for. -/
theorem startsNumberThen_iff {l : Lexeme} :
    startsNumberThen l ts ↔
      ∃ t u us text, ts = t :: u :: us ∧ t.lexeme = .number text ∧ u.lexeme = l := by
  constructor
  · intro h
    unfold startsNumberThen at h
    split at h
    · next text _ _ u us => exact ⟨_, u, us, text, rfl, rfl, by simpa using h⟩
    · simp at h
  · rintro ⟨⟨_, _, _⟩, u, us, text, rfl, rfl, hu⟩
    simpa [startsNumberThen] using hu

/-- **Optional group.** Where the test for a group of the other kind fails on every group that
    `take` reads, a group is read exactly if a parenthesis opens it. -/
private theorem group_eq_ok_iff {α β : Type} {t : Token} {us : List Token} {error : ParseError}
    {other : Lexeme} {take : List Token → Except ParseError (α × List Token)} {absent v : β}
    {written : α → β}
    (hother : ∀ x, take us = .ok (x, rest) → startsNumberThen other us = false) :
    (if t.lexeme ≠ .leftParen then .ok (absent, t :: us)
      else if startsNumberThen other us then .error error
      else (take us).map fun (x, rest) => (written x, rest)) = .ok (v, rest) ↔
      (v = absent ∧ rest = t :: us ∧ t.lexeme ≠ .leftParen) ∨
        (t.lexeme = .leftParen ∧ ∃ x, v = written x ∧ take us = .ok (x, rest)) := by
  by_cases hparen : t.lexeme = .leftParen
  · -- the test rules out groups of the other kind only, so it loses nothing that would be read
    simp only [hparen, ne_eq, not_true_eq_false, if_false, and_false, false_or, true_and]
    split
    · next hstart =>
      constructor
      · simp
      · rintro ⟨x, -, htake⟩
        rw [hother x htake] at hstart
        simp at hstart
    · rw [map_eq_ok_iff]
      constructor
      · rintro ⟨⟨x, us'⟩, htake, heq⟩
        cases heq
        exact ⟨x, rfl, htake⟩
      · rintro ⟨x, rfl, htake⟩
        exact ⟨(x, rest), htake, rfl⟩
  · simp [hparen, eq_comm]

theorem takeFieldSpec_eq_ok_iff {m : Mnemonic} {f : FieldSpec} :
    takeFieldSpec lineEnd m ts = .ok (f, rest) ↔
      (f = .default ∧ rest = ts ∧ front? ts ≠ some .leftParen) ∨
        ∃ t us, ts = t :: us ∧ t.lexeme = .leftParen ∧
          ∃ fields, f = .explicit fields ∧ takeFields lineEnd us = .ok (fields, rest) := by
  cases ts with
  | nil => simp [takeFieldSpec, front?, eq_comm]
  | cons t us =>
    rw [takeFieldSpec, group_eq_ok_iff]
    · simp [front?, and_assoc]
    · -- a colon behind the first number is no parenthesis
      intro fields h
      obtain ⟨t₁, colon, t₂, close, _, _, rfl, _, hcolon, -⟩ := takeFields_eq_ok_iff.mp h
      rw [Bool.eq_false_iff, Ne, startsNumberThen_iff]
      rintro ⟨_, _, _, _, heq, -, hclose⟩
      simp only [List.cons.injEq] at heq
      rw [← heq.2.1, hcolon] at hclose
      cases hclose

theorem takeArgSpec_eq_ok_iff {m : Mnemonic} {a : ArgSpec} :
    takeArgSpec lineEnd m ts = .ok (a, rest) ↔
      (a = .default ∧ rest = ts ∧ front? ts ≠ some .leftParen) ∨
        ∃ t us, ts = t :: us ∧ t.lexeme = .leftParen ∧
          ∃ argument, a = .explicit argument ∧ takeArgument lineEnd us = .ok (argument, rest) := by
  cases ts with
  | nil => simp [takeArgSpec, front?, eq_comm]
  | cons t us =>
    rw [takeArgSpec, group_eq_ok_iff]
    · simp [front?, and_assoc]
    · -- a parenthesis behind the number is no colon
      intro argument h
      obtain ⟨t₁, close, _, rfl, _, hclose⟩ := takeArgument_eq_ok_iff.mp h
      rw [Bool.eq_false_iff, Ne, startsNumberThen_iff]
      rintro ⟨_, _, _, _, heq, -, hcolon⟩
      simp only [List.cons.injEq] at heq
      rw [← heq.2.1, hclose] at hcolon
      cases hcolon

end Token

/-! ### Whole lines -/

namespace Instruction

open Token

variable {cfg : Config} {lineEnd : Nat} {ts rest : List Token}

theorem finish_eq_ok_iff {m : Mnemonic} {ins ins' : Instruction} :
    finish m ins ts = .ok ins' ↔ ins = ins' ∧ ts = [] := by
  cases ts <;> simp [finish]

theorem takeOperands_onlyName_eq_ok_iff {op : NameOp} {ins : Instruction} :
    takeOperands cfg lineEnd ts (.onlyName op) = .ok (ins, rest) ↔
      ins = .onlyName op ∧ rest = ts := by
  simp [takeOperands, eq_comm]

theorem takeOperands_field_eq_ok_iff {op : FieldOp} {ins : Instruction} :
    takeOperands cfg lineEnd ts (.field op) = .ok (ins, rest) ↔
      ∃ a i f us, ins = .field op a i f ∧ takeAddressIndex cfg lineEnd ts = .ok ((a, i), us) ∧
        takeFieldSpec lineEnd (.field op) us = .ok (f, rest) := by
  simp only [takeOperands, bind_eq_ok_iff, Prod.exists]
  constructor
  · rintro ⟨a, i, us, hops, f, us', hgroup, hins⟩
    cases hins
    exact ⟨a, i, f, us, rfl, hops, hgroup⟩
  · rintro ⟨a, i, f, us, rfl, hops, hgroup⟩
    exact ⟨a, i, us, hops, f, rest, hgroup, rfl⟩

theorem takeOperands_nonField_eq_ok_iff {op : NonFieldOp} {ins : Instruction} :
    takeOperands cfg lineEnd ts (.nonField op) = .ok (ins, rest) ↔
      ∃ a i, ins = .nonField op a i ∧ takeAddressIndex cfg lineEnd ts = .ok ((a, i), rest) := by
  simp only [takeOperands, bind_eq_ok_iff, Prod.exists]
  constructor
  · rintro ⟨a, i, us, hops, hins⟩
    cases hins
    exact ⟨a, i, rfl, hops⟩
  · rintro ⟨a, i, rfl, hops⟩
    exact ⟨a, i, rest, hops, rfl⟩

theorem takeOperands_arg_eq_ok_iff {op : ArgOp} {ins : Instruction} :
    takeOperands cfg lineEnd ts (.arg op) = .ok (ins, rest) ↔
      ∃ a i n us, ins = .arg op a i n ∧ takeAddressIndex cfg lineEnd ts = .ok ((a, i), us) ∧
        takeArgSpec lineEnd (.arg op) us = .ok (n, rest) := by
  simp only [takeOperands, bind_eq_ok_iff, Prod.exists]
  constructor
  · rintro ⟨a, i, us, hops, n, us', hgroup, hins⟩
    cases hins
    exact ⟨a, i, n, us, rfl, hops, hgroup⟩
  · rintro ⟨a, i, n, us, rfl, hops, hgroup⟩
    exact ⟨a, i, us, hops, n, rest, hgroup, rfl⟩

/-- Operands are read for the opcode that they are asked for. -/
theorem mnemonic_of_takeOperands {m : Mnemonic} {ins : Instruction}
    (h : takeOperands cfg lineEnd ts m = .ok (ins, rest)) : ins.mnemonic = m := by
  cases m with
  | onlyName op =>
    obtain ⟨rfl, -⟩ := takeOperands_onlyName_eq_ok_iff.mp h
    rfl
  | field op =>
    obtain ⟨a, i, f, us, rfl, -⟩ := takeOperands_field_eq_ok_iff.mp h
    rfl
  | nonField op =>
    obtain ⟨a, i, rfl, -⟩ := takeOperands_nonField_eq_ok_iff.mp h
    rfl
  | arg op =>
    obtain ⟨a, i, n, us, rfl, -⟩ := takeOperands_arg_eq_ok_iff.mp h
    rfl

/-- What is read starts with a word that spells its opcode, and its operands are all that
    follows. -/
theorem ofTokens_eq_ok_iff {ins : Instruction} :
    ofTokens cfg lineEnd ts = .ok ins ↔
      ∃ t us text, ts = t :: us ∧ t.lexeme = .word text ∧ text.toList = ins.mnemonic.spelling ∧
        takeOperands cfg lineEnd us ins.mnemonic = .ok (ins, []) := by
  rw [ofTokens]
  simp only [bind_eq_ok_iff, Prod.exists, takeWord_eq_ok_iff, Mnemonic.classify_eq_ok_iff,
    finish_eq_ok_iff]
  constructor
  · -- the opcode that was named is the one of the instruction that its operands made
    rintro ⟨text, c, us, ⟨t, rfl, ht, -⟩, m, hm, ins', rest, hops, rfl, rfl⟩
    rw [mnemonic_of_takeOperands hops]
    exact ⟨t, us, text, rfl, ht, hm, hops⟩
  · rintro ⟨t, us, text, rfl, ht, hm, hops⟩
    exact ⟨text, t.column, us, ⟨t, rfl, ht, rfl⟩, _, hm, ins, [], hops, rfl, rfl⟩

end Instruction

end MixAsm
