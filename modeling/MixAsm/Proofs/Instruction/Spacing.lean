import MixAsm.Instruction.Parser
import MixAsm.Proofs.Token.Spacing

namespace MixAsm

open Token

/-!
# Spare spaces

To let spaces surround a line and be repeated is to read the squeezed line strictly. The reader
looks at nothing of a token but its lexeme, the width of a space before the operands, and the column
if the token is to blame. So on alike tokens each of its steps agrees with itself, and where the one
reader lets a wide space pass, the other meets a single one.

* `AlikeRest` — equal values with alike tokens behind them;
* `Instruction.agree_ofTokens` — the readers on alike tokens;
* `Instruction.agree_parse_squeeze` — a whole line.
-/

variable {cfg : Config} {lineEnd lineEnd' : Nat} {expected : Expected} {ts us : List Token}

/-- Equal values that were read, and alike tokens that are left. -/
def AlikeRest {α : Type} (r r' : α × List Token) : Prop :=
  r.1 = r'.1 ∧ List.Forall₂ Alike r.2 r'.2

/-- Equal literals that were read, in whatever columns, and alike tokens that are left. -/
def AlikeLiteral (r r' : (String × Nat) × List Token) : Prop :=
  r.1.1 = r'.1.1 ∧ List.Forall₂ Alike r.2 r'.2

namespace Token

/-! ### Single steps -/

theorem found_eq (h : List.Forall₂ Alike ts us) : found ts = found us := by
  rw [found, found, front?_eq h]

/-- Whatever was expected, the same is found in its place. -/
theorem agree_malformed {α β : Type} {R : α → β → Prop} (h : List.Forall₂ Alike ts us) :
    Agree R (.error (malformed lineEnd expected ts)) (.error (malformed lineEnd' expected us)) := by
  apply Agree.error
  show Fault.malformed expected (found ts) = Fault.malformed expected (found us)
  rw [found_eq h]

theorem agree_takeWord (h : List.Forall₂ Alike ts us) :
    Agree AlikeLiteral (takeWord lineEnd expected ts) (takeWord lineEnd' expected us) := by
  cases h with
  | nil => exact agree_malformed .nil
  | @cons t u ts us htu h =>
    rw [takeWord, takeWord, htu.lexeme_eq]
    split
    · exact .ok ⟨rfl, h⟩
    · exact agree_malformed (.cons htu h)

theorem agree_takeNumber (h : List.Forall₂ Alike ts us) :
    Agree AlikeLiteral (takeNumber lineEnd expected ts) (takeNumber lineEnd' expected us) := by
  cases h with
  | nil => exact agree_malformed .nil
  | @cons t u ts us htu h =>
    rw [takeNumber, takeNumber, htu.lexeme_eq]
    split
    · exact .ok ⟨rfl, h⟩
    · exact agree_malformed (.cons htu h)

theorem agree_takeLexeme {l : Lexeme} (h : List.Forall₂ Alike ts us) :
    Agree (List.Forall₂ Alike) (takeLexeme lineEnd l expected ts)
      (takeLexeme lineEnd' l expected us) := by
  cases h with
  | nil => exact agree_malformed .nil
  | @cons t u ts us htu h =>
    rw [takeLexeme, takeLexeme, htu.lexeme_eq]
    split
    · exact .ok h
    · exact agree_malformed (.cons htu h)

/-- A space of any width passes in the one line, and is a single one in the other. -/
theorem agree_takeGap (hcollapse : cfg.collapseSpaces) (h : List.Forall₂ Alike ts us) :
    Agree (List.Forall₂ Alike) (takeGap cfg lineEnd ts) (takeGap cfg.singleSpaced lineEnd' us) := by
  cases h with
  | nil => exact agree_malformed .nil
  | @cons t u ts us htu h =>
    rw [takeGap, takeGap, htu.lexeme_eq]
    by_cases hspace : u.lexeme = .space
    · have hwidth : u.width ≤ 1 := htu.width_le hspace
      simp only [hspace, hcollapse, hwidth, if_true, Bool.true_or, Bool.or_true, decide_true]
      exact .ok h
    · rw [if_neg hspace, if_neg hspace]
      exact agree_malformed (.cons htu h)

/-! ### Operands -/

/-- A literal is refused for its text, in whatever column. -/
theorem agree_parse {α : Type} (kind : OperandKind) (accept : Nat → Option α) (text : String)
    (column column' : Nat) :
    Agree (· = ·) (kind.parse accept text column) (kind.parse accept text column') := by
  unfold OperandKind.parse
  split
  · exact .ok rfl
  · exact .error rfl

theorem agree_takeAddressIndex (hcollapse : cfg.collapseSpaces) (h : List.Forall₂ Alike ts us) :
    Agree AlikeRest (takeAddressIndex cfg lineEnd ts)
      (takeAddressIndex cfg.singleSpaced lineEnd' us) := by
  refine (agree_takeGap hcollapse h).bind fun ts us h => ?_
  refine (agree_takeNumber h).bind ?_
  rintro ⟨⟨text, column⟩, ts⟩ ⟨⟨_, column'⟩, us⟩ ⟨rfl, h⟩
  refine (agree_parse .address Address.ofNat? text column column').bind ?_
  rintro a _ rfl
  refine (agree_takeLexeme h).bind fun ts us h => ?_
  refine (agree_takeNumber h).bind ?_
  rintro ⟨⟨text, column⟩, ts⟩ ⟨⟨_, column'⟩, us⟩ ⟨rfl, h⟩
  refine (agree_parse .index Index.ofNat? text column column').bind ?_
  rintro i _ rfl
  exact .ok ⟨rfl, h⟩

theorem agree_takeFields (h : List.Forall₂ Alike ts us) :
    Agree AlikeRest (takeFields lineEnd ts) (takeFields lineEnd' us) := by
  refine (agree_takeNumber h).bind ?_
  rintro ⟨⟨left, column⟩, ts⟩ ⟨⟨_, column'⟩, us⟩ ⟨rfl, h⟩
  refine (agree_takeLexeme h).bind fun ts us h => ?_
  refine (agree_takeNumber h).bind ?_
  rintro ⟨⟨right, rightColumn⟩, ts⟩ ⟨⟨_, rightColumn'⟩, us⟩ ⟨rfl, h⟩
  refine (agree_takeLexeme h).bind fun ts us h => ?_
  -- both bounds are read once the group is closed
  have hfields : Agree (· = ·) (Fields.parse left column right rightColumn)
      (Fields.parse left column' right rightColumn') := by
    refine (agree_parse .fields word32? left column column').bind ?_
    rintro l _ rfl
    refine (agree_parse .fields word32? right rightColumn rightColumn').bind ?_
    rintro r _ rfl
    exact .ok rfl
  refine hfields.bind ?_
  rintro f _ rfl
  exact .ok ⟨rfl, h⟩

theorem agree_takeArgument (h : List.Forall₂ Alike ts us) :
    Agree AlikeRest (takeArgument lineEnd ts) (takeArgument lineEnd' us) := by
  refine (agree_takeNumber h).bind ?_
  rintro ⟨⟨text, column⟩, ts⟩ ⟨⟨_, column'⟩, us⟩ ⟨rfl, h⟩
  refine (agree_takeLexeme h).bind fun ts us h => ?_
  refine (agree_parse .argument _ text column column').bind ?_
  rintro a _ rfl
  exact .ok ⟨rfl, h⟩

/-! ### Groups in parentheses -/

/-- The two tokens that are looked at have the same lexemes. -/
theorem startsNumberThen_eq {l : Lexeme} (h : List.Forall₂ Alike ts us) :
    startsNumberThen l ts = startsNumberThen l us := by
  cases h with
  | nil => rfl
  | @cons t u ts us htu h =>
    obtain ⟨lexeme, start, stop⟩ := t
    obtain ⟨_, start', stop'⟩ := u
    obtain rfl : lexeme = _ := htu.lexeme_eq
    cases h with
    | nil => cases lexeme <;> rfl
    | cons hnext _ => cases lexeme <;> simp [startsNumberThen, hnext.lexeme_eq]

/-- Optional groups agree if the groups do. -/
private theorem agree_group {α β : Type} {t u : Token} {error error' : ParseError} {other : Lexeme}
    {take take' : List Token → Except ParseError (α × List Token)} {absent : β} {written : α → β}
    (htu : Alike t u) (h : List.Forall₂ Alike ts us) (herror : error.fault = error'.fault)
    (htake : Agree AlikeRest (take ts) (take' us)) :
    Agree AlikeRest
      (if t.lexeme ≠ .leftParen then .ok (absent, t :: ts)
        else if startsNumberThen other ts then .error error
        else (take ts).map fun (x, rest) => (written x, rest))
      (if u.lexeme ≠ .leftParen then .ok (absent, u :: us)
        else if startsNumberThen other us then .error error'
        else (take' us).map fun (x, rest) => (written x, rest)) := by
  rw [htu.lexeme_eq, startsNumberThen_eq h]
  split
  · exact .ok ⟨rfl, .cons htu h⟩
  · split
    · exact .error herror
    · refine htake.map ?_
      rintro ⟨x, rest⟩ ⟨_, rest'⟩ ⟨rfl, h⟩
      exact ⟨rfl, h⟩

theorem agree_takeFieldSpec {m : Mnemonic} (h : List.Forall₂ Alike ts us) :
    Agree AlikeRest (takeFieldSpec lineEnd m ts) (takeFieldSpec lineEnd' m us) := by
  cases h with
  | nil => exact .ok ⟨rfl, .nil⟩
  | cons htu h => exact agree_group htu h rfl (agree_takeFields h)

theorem agree_takeArgSpec {m : Mnemonic} (h : List.Forall₂ Alike ts us) :
    Agree AlikeRest (takeArgSpec lineEnd m ts) (takeArgSpec lineEnd' m us) := by
  cases h with
  | nil => exact .ok ⟨rfl, .nil⟩
  | cons htu h => exact agree_group htu h rfl (agree_takeArgument h)

end Token

/-! ### Whole lines -/

namespace Instruction

theorem agree_classify (word : String) (column column' : Nat) :
    Agree (· = ·) (Mnemonic.classify word column) (Mnemonic.classify word column') := by
  unfold Mnemonic.classify
  split
  · exact .ok rfl
  · exact .error rfl

theorem agree_takeOperands (hcollapse : cfg.collapseSpaces) (m : Mnemonic)
    (h : List.Forall₂ Alike ts us) :
    Agree AlikeRest (takeOperands cfg lineEnd ts m)
      (takeOperands cfg.singleSpaced lineEnd' us m) := by
  cases m with
  | onlyName op => exact .ok ⟨rfl, h⟩
  | field op =>
    refine (agree_takeAddressIndex hcollapse h).bind ?_
    rintro ⟨⟨a, i⟩, ts⟩ ⟨_, us⟩ ⟨rfl, h⟩
    refine (agree_takeFieldSpec h).bind ?_
    rintro ⟨f, ts⟩ ⟨_, us⟩ ⟨rfl, h⟩
    exact .ok ⟨rfl, h⟩
  | nonField op =>
    refine (agree_takeAddressIndex hcollapse h).bind ?_
    rintro ⟨⟨a, i⟩, ts⟩ ⟨_, us⟩ ⟨rfl, h⟩
    exact .ok ⟨rfl, h⟩
  | arg op =>
    refine (agree_takeAddressIndex hcollapse h).bind ?_
    rintro ⟨⟨a, i⟩, ts⟩ ⟨_, us⟩ ⟨rfl, h⟩
    refine (agree_takeArgSpec h).bind ?_
    rintro ⟨n, ts⟩ ⟨_, us⟩ ⟨rfl, h⟩
    exact .ok ⟨rfl, h⟩

theorem agree_finish (m : Mnemonic) (ins : Instruction) (h : List.Forall₂ Alike ts us) :
    Agree (· = ·) (finish m ins ts) (finish m ins us) := by
  cases h with
  | nil => exact .ok rfl
  | @cons t u _ _ htu _ =>
    apply Agree.error
    show Fault.unexpected m (.lexeme t.lexeme) = Fault.unexpected m (.lexeme u.lexeme)
    rw [htu.lexeme_eq]

/-- **Reading alike tokens.** A reader that lets spaces be repeated reads tokens as a strict one
    reads tokens that are alike but for the width of their spaces. -/
theorem agree_ofTokens (hcollapse : cfg.collapseSpaces) (h : List.Forall₂ Alike ts us) :
    Agree (· = ·) (ofTokens cfg lineEnd ts) (ofTokens cfg.singleSpaced lineEnd' us) := by
  refine (agree_takeWord h).bind ?_
  rintro ⟨⟨word, column⟩, ts⟩ ⟨⟨_, column'⟩, us⟩ ⟨rfl, h⟩
  refine (agree_classify word column column').bind ?_
  rintro m _ rfl
  refine (agree_takeOperands hcollapse m h).bind ?_
  rintro ⟨ins, ts⟩ ⟨_, us⟩ ⟨rfl, h⟩
  exact agree_finish m ins h

/-- **Spare spaces.** Where spaces may surround a line and be repeated, a line is read as the
    squeezed line is where they may not: as the same instruction, or with an error that differs in
    its column at most. -/
theorem agree_parse_squeeze (hcollapse : cfg.collapseSpaces) (line : String) :
    Agree (· = ·) (parse cfg line) (parse cfg.singleSpaced (Text.squeeze line)) := by
  have hparse : parse cfg line = (tokenize cfg line).map trimSpaces >>=
      ofTokens cfg (line.length + 1) := by
    rw [parse]
    simp only [if_pos hcollapse]
    cases tokenize cfg line <;> rfl
  rw [hparse]
  exact (agree_tokenize_squeeze cfg line).bind fun ts us h => agree_ofTokens hcollapse h

/-- An address out of range is refused in either line, in the column that it has there. -/
theorem agree_parse_squeeze_outOfRange :
    (⟨false, true, true⟩ : Config).collapseSpaces ∧
      Agree (· = ·) (parse ⟨false, true, true⟩ "  ADD   4000,1  ")
        (parse ⟨false, false, true⟩ "ADD 4000,1") ∧
      parse ⟨false, true, true⟩ "  ADD   4000,1  " = .error ⟨9, .outOfRange .address "4000"⟩ ∧
      parse ⟨false, false, true⟩ "ADD 4000,1" = .error ⟨5, .outOfRange .address "4000"⟩ := by
  have hsqueeze : Text.squeeze "  ADD   4000,1  " = "ADD 4000,1" := by decide +kernel
  have hcollapse : (⟨false, true, true⟩ : Config).collapseSpaces := rfl
  have hagree := agree_parse_squeeze hcollapse "  ADD   4000,1  "
  rw [hsqueeze] at hagree
  exact ⟨hcollapse, hagree, by decide +kernel, by decide +kernel⟩

end Instruction

end MixAsm
