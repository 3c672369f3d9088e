import MixAsm.Proofs.Instruction.Anchored

namespace MixAsm

open Token

/-!
# What an error is about

Each error is about a character that no token has, about a token that does not fit, or about the end
of its line. The column of an error is the place of what it is about, and nothing in front of that
place is a character that a line may not have.

* `Fault.subject` — what a fault is about;
* `Subject.At` — the places of a line where it stands;
* `Instruction.subject_at_column` — the errors of lines.
-/

/-- What a fault can be about. -/
inductive Subject
  | character (c : Char)
  | lexeme (l : Lexeme)
  | endOfLine
  deriving DecidableEq, Repr

/-- What is found is what the fault is about; spaces are a token, however many there are. -/
def Found.subject : Found → Subject
  | lexeme l => .lexeme l
  | spaces _ => .lexeme .space
  | endOfLine => .endOfLine

/-- What is left over is what the fault is about; a group is named by its first token. -/
def Leftover.subject : Leftover → Subject
  | lexeme l => .lexeme l
  | argumentGroup | fieldGroup => .lexeme .leftParen

/-- What the fault is about. -/
def Fault.subject : Fault → Subject
  | illegalCharacter c => .character c
  | unknownMnemonic word => .lexeme (.word word)
  | malformed _ found => found.subject
  | outOfRange _ literal => .lexeme (.number literal)
  | unexpected _ leftover => leftover.subject

/-- What is behind the first `k` characters: the character, all the characters that write the token,
    or nothing. -/
def Subject.At (cfg : Config) (cs : List Char) (k : Nat) : Subject → Prop
  | character c => cs[k]? = some c
  | lexeme l => ∃ run rest, cs.drop k = run ++ rest ∧ l.SpelledBy cfg run ∧
      ∀ d ∈ rest.head?, l.charClass.continues cfg d = false
  | endOfLine => k = cs.length

variable {cfg : Config} {line : String} {cs : List Char} {ts us : List Token}

/-- What stands in front of the tokens. -/
def Token.subject (ts : List Token) : Subject := (front? ts).elim .endOfLine .lexeme

/-- Reading stops for what it stops in front of. -/
theorem Stops.subject_eq {lineEnd : Nat} {p : List Char} {e : ParseError}
    (h : Stops cfg lineEnd p ts e) : e.fault.subject = Token.subject ts := by
  cases h with
  | malformed _ _ => cases ts <;> rfl
  | @spaces _ t rest _ hspace _ _ =>
    show Subject.lexeme .space = .lexeme t.lexeme
    rw [hspace]
  | @unknownMnemonic t rest word hword _ =>
    show Subject.lexeme (.word word) = .lexeme t.lexeme
    rw [hword]
  | @outOfRange _ _ _ t rest text _ _ hnumber _ =>
    show Subject.lexeme (.number text) = .lexeme t.lexeme
    rw [hnumber]
  | unexpected _ hrefuses =>
    cases hrefuses with
    | closed | noGroup => rfl
    | @argument _ _ _ t _ hparen _ | @fields _ _ _ t _ hparen _ =>
      show Subject.lexeme .leftParen = .lexeme t.lexeme
      rw [hparen]

/-- What stands in front of some of the tokens of a line stands in their column. -/
theorem Token.Tiles.subject_at (h : Tiles cfg 0 cs ts) (hsub : us ⊆ ts) :
    ∃ k, columnOf (cs.length + 1) us = k + 1 ∧ (Token.subject us).At cfg cs k := by
  cases us with
  | nil => exact ⟨cs.length, rfl, rfl⟩
  | cons u us =>
    obtain ⟨pre, run, post, rfl, hcolumn, -, hrun, hpost⟩ :=
      h.exists_run (hsub List.mem_cons_self)
    refine ⟨pre.length, ?_, run, post, ?_, hrun, hpost⟩
    · show u.column = pre.length + 1
      omega
    · rw [List.append_assoc, List.drop_left]

namespace Instruction

/-- **Subjects.** The column of an error is the place of what the error is about. The characters in
    front of it are some that a line may have. -/
theorem subject_at_column {e : ParseError} (h : parse cfg line = .error e) :
    ∃ k, e.column = k + 1 ∧ e.fault.subject.At cfg line.toList k ∧
      ∀ c ∈ line.toList.take k, cfg.Admits c := by
  by_cases hkind : e.kind = .lexical
  · have htokens := parse_eq_error_and_lexical_iff.mp ⟨h, hkind⟩
    obtain ⟨pre, c, post, hline, hpre, -, rfl⟩ := tokenize_eq_error_iff.mp htokens
    refine ⟨pre.length, rfl, ?_, ?_⟩
    · show line.toList[pre.length]? = some c
      rw [hline, List.getElem?_append_right (Nat.le_refl _), Nat.sub_self]
      rfl
    · rwa [hline, List.take_left]
  · -- the line has tokens, and some of them are left where reading stops
    obtain ⟨ts, htokens⟩ := exists_tokenize_of_parse_eq_error h hkind
    obtain ⟨_, _, _, _, us, -, -, -, -, hsub, hstops⟩ := stops_of_tokenize htokens h
    have hts : Tiles cfg 0 line.toList ts := scan_eq_ok_iff.mp htokens
    obtain ⟨k, hcolumn, hat⟩ := hts.subject_at hsub
    rw [String.length_toList, ← hstops.column_eq] at hcolumn
    rw [← hstops.subject_eq] at hat
    refine ⟨k, hcolumn, hat, fun c hc => ?_⟩
    exact admits_of_tokenize htokens c (List.mem_of_mem_take hc)

end Instruction

end MixAsm
