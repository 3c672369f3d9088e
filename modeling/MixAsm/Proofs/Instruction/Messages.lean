import MixAsm.Proofs.Instruction.Subject
import MixAsm.Proofs.Text.SingleLine

namespace MixAsm

/-!
# Messages of errors

The message of an error is a single line, whatever the line holds that it is about: a character is
quoted, and what else a message shows of a line is made of characters that a line may have.

* `ParseError.newline_not_mem_message` — messages whose subject is a single line;
* `Instruction.newline_not_mem_message` — messages of lines.
-/

variable {cfg : Config} {line : String}

/-! ### Pieces of messages -/

/-- A capital or a digit is no line feed. -/
theorem ne_newline_of_isUpper_or_isDigit {c : Char} (h : c.isUpper ∨ c.isDigit) : '\n' ≠ c := by
  rintro rfl
  simp at h

theorem Mnemonic.newline_not_mem_name (m : Mnemonic) : '\n' ∉ m.name.toList := by
  rw [name, String.toList_ofList]
  intro h
  exact ne_newline_of_isUpper_or_isDigit (m.spelling_word.2 _ h) rfl

/-- What shows a token of a line is a single line. -/
theorem Lexeme.SpelledBy.newline_not_mem_describe {l : Lexeme} {run : List Char}
    (h : l.SpelledBy cfg run) : '\n' ∉ l.describe.toList := by
  cases l with
  | word text =>
    obtain ⟨-, hrun, rfl⟩ := h
    have hfold : ∀ c ∈ run, '\n' ≠ cfg.fold c := by
      intro c hc
      apply ne_newline_of_isUpper_or_isDigit
      rw [Config.isDigit_fold]
      exact hrun c hc
    simpa [describe, toString, eq_comm] using hfold
  | number text =>
    obtain ⟨hrun, rfl⟩ := h
    have hdigit : '\n' ∉ run := fun hmem => by simpa using Text.isDigit_of_isNumeral hrun hmem
    simpa [describe, toString] using hdigit
  | leftParen | rightParen | colon | comma | space => simp [describe]

/-! ### Messages -/

/-- A message is a single line if what it is about is shown as one. -/
theorem ParseError.newline_not_mem_message {e : ParseError}
    (h : ∀ l, e.fault.subject = .lexeme l → '\n' ∉ l.describe.toList) :
    '\n' ∉ e.message.toList := by
  obtain ⟨column, fault⟩ := e
  cases fault with
  | illegalCharacter c =>
    have hmark : '\'' ≠ '\n' := by decide
    have hquote := Text.newline_not_mem_quote hmark [c]
    simpa [message, toString, Text.quoteChar] using hquote
  | unknownMnemonic word =>
    have hword := h _ rfl
    simpa [message, toString, Lexeme.describe] using hword
  | malformed x found =>
    have hx : '\n' ∉ x.describe.toList := by cases x <;> simp [Expected.describe]
    have hfound : '\n' ∉ found.describe.toList := by
      cases found with
      | lexeme l => exact h l rfl
      | spaces n => simp [Found.describe, toString]
      | endOfLine => simp [Found.describe]
    simp [message, toString, hx, hfound]
  | outOfRange kind literal =>
    have hkind : '\n' ∉ kind.noun.toList := by cases kind <;> simp [OperandKind.noun]
    have hliteral := h _ rfl
    simpa [message, toString, Lexeme.describe, hkind] using hliteral
  | unexpected m leftover =>
    have hleftover : '\n' ∉ leftover.describe.toList := by
      cases leftover with
      | lexeme l => exact h l rfl
      | argumentGroup | fieldGroup => simp [Leftover.describe]
    simp [message, toString, m.newline_not_mem_name, hleftover]

/-- **Messages.** The message of an error is a single line, whatever line it is an error of. -/
theorem Instruction.newline_not_mem_message {e : ParseError} (h : parse cfg line = .error e) :
    '\n' ∉ e.message.toList := by
  obtain ⟨k, -, hat, -⟩ := subject_at_column h
  apply ParseError.newline_not_mem_message
  intro l hl
  rw [hl] at hat
  obtain ⟨run, rest, -, hrun, -⟩ := hat
  exact hrun.newline_not_mem_describe

end MixAsm
