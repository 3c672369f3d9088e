import MixAsm.Proofs.Instruction.Messages
import MixAsm.Proofs.Program.Numbering

namespace MixAsm

/-!
# Carets

A diagnostic is shown in four lines, and the caret in the last one stands below the character of the
source line that the error is about, or below the place behind the line if that is what the error is
about. The characters in front of it are of the alphabet of lines, so each of them takes one column.

* `Diagnostic.Shows` — the four lines;
* `Diagnostic.exists_shows` — what is needed for them;
* `Program.caret_under_subject` — the diagnostics of a text.
-/

/-! ### Four lines -/

namespace Diagnostic

variable {d : Diagnostic}

/-- The diagnostic is shown in four lines. The third one is the source behind a gutter, and the last
    one is its only caret behind a blank, which reaches to below the first `k` characters of the
    source. -/
structure Shows (d : Diagnostic) (place margin gutter blank : String) (k : Nat) : Prop where
  render_eq :
    d.render = String.join ([place, margin, gutter ++ d.source, blank ++ "^"].map (· ++ "\n"))
  newline_not_mem : ∀ l ∈ [place, margin, gutter ++ d.source, blank ++ "^"], '\n' ∉ l.toList
  caret_not_mem : '^' ∉ blank.toList
  length_blank : blank.length = gutter.length + k

/-- A diagnostic of single lines is shown so, with the blank up to its column. -/
theorem exists_shows {k : Nat} (hfile : '\n' ∉ d.file.toList) (hmessage : '\n' ∉ d.message.toList)
    (hsource : '\n' ∉ d.source.toList) (hcolumn : d.column = k + 1) :
    ∃ place margin gutter blank, d.Shows place margin gutter blank k := by
  let margin := Text.spaces (toString d.line).length
  refine ⟨s!"{d.file}:{d.line}:{d.column}: error: {d.message}", s!" {margin} |", s!" {d.line} | ",
    s!" {margin} | " ++ Text.spaces k, ?_, ?_, ?_, ?_⟩
  · -- of the column's characters the caret is the last, and the others are spaces
    have hcaret : Text.padLeft d.column "^" = Text.spaces k ++ "^" := by
      show Text.spaces (d.column - 1) ++ "^" = _
      rw [hcolumn, Nat.add_sub_cancel]
    rw [render, hcaret, ← String.toList_inj]
    simp [margin, toString]
  · simp [margin, toString, hfile, hmessage, hsource]
  · simp [margin, toString]
  · simp [margin, toString]

/-- The caret takes the column of the character that no token has. -/
example : (⟨"prog.mix", 12, 4, .lexical, "unrecognized character '\\t' at column 4",
      "LDA\t10,1"⟩ : Diagnostic).render
    = "prog.mix:12:4: error: unrecognized character '\\t' at column 4\n    |\n" ++
      " 12 | LDA\t10,1\n    |    ^\n" := by
  decide +kernel

end Diagnostic

namespace Program

variable {cfg : Config} {text file : String}

/-- A diagnostic tells of the error of a line of the text. -/
theorem exists_of_mem_diagnostics {d : Diagnostic} (h : d ∈ (parse cfg text).diagnostics file) :
    ∃ e, Text.lineAt? text d.line = some d.source ∧ Instruction.parse cfg d.source = .error e ∧
      d.Tells file ⟨d.line, e⟩ := by
  obtain ⟨l, hl, hd⟩ := List.mem_filterMap.mp h
  obtain ⟨hline, hread⟩ := mem_lines_parse_iff.mp hl
  have hresult := (reading_eq_some_iff.mp hread).2
  unfold ParsedLine.diagnostic? at hd
  split at hd
  · cases hd
  · next e he =>
    cases hd
    exact ⟨e, hline, by rw [← he, hresult]; rfl, rfl, rfl, rfl, rfl, rfl⟩

/-- **Carets.** Each diagnostic of a text is shown in four lines. The third one ends with the line of
    the text that the error is in, and the caret at the end of the last one stands below what the
    error is about, with nothing in front of it in the line but characters that a line may have. -/
theorem caret_under_subject (hfile : '\n' ∉ file.toList) {d : Diagnostic}
    (hd : d ∈ (parse cfg text).diagnostics file) :
    ∃ e k, Text.lineAt? text d.line = some d.source ∧ Instruction.parse cfg d.source = .error e ∧
      d.Tells file ⟨d.line, e⟩ ∧ d.column = k + 1 ∧
      (∃ place margin gutter blank, d.Shows place margin gutter blank k) ∧
      e.fault.subject.At cfg d.source.toList k ∧ ∀ c ∈ d.source.toList.take k, cfg.Admits c := by
  obtain ⟨e, hline, hparse, htells⟩ := exists_of_mem_diagnostics hd
  obtain ⟨k, hcolumn, hat, hadmits⟩ := Instruction.subject_at_column hparse
  have hcolumn' : d.column = k + 1 := by rw [htells.column_eq, hcolumn]
  refine ⟨e, k, hline, hparse, htells, hcolumn', ?_, hat, hadmits⟩
  apply Diagnostic.exists_shows _ _ _ hcolumn'
  · rwa [htells.file_eq]
  · rw [htells.message_eq]
    exact Instruction.newline_not_mem_message hparse
  · exact Text.newline_not_mem_of_lineAt? hline

/-- A tab is shown as it is, behind the caret's place, and quoted in the message. -/
theorem caret_under_subject_tab :
    let d : Diagnostic := ⟨"prog.mix", 2, 4, .lexical, "unrecognized character '\\t' at column 4",
      "LDA\t10,1"⟩
    '\n' ∉ "prog.mix".toList ∧ d ∈ (parse {} "NOP\nLDA\t10,1").diagnostics "prog.mix" ∧
      (∃ place margin gutter blank, d.Shows place margin gutter blank 3) ∧
      ∃ e, Instruction.parse {} "LDA\t10,1" = .error e ∧
        e.fault.subject.At {} "LDA\t10,1".toList 3 := by
  intro d
  have hfile : '\n' ∉ "prog.mix".toList := by decide
  have hd : d ∈ (parse {} "NOP\nLDA\t10,1").diagnostics "prog.mix" := by decide +kernel
  obtain ⟨e, k, -, hparse, -, hcolumn, hshows, hat, -⟩ := caret_under_subject hfile hd
  have hk : k = 3 := (Nat.succ.inj hcolumn).symm
  subst hk
  exact ⟨hfile, hd, hshows, e, hparse, hat⟩

end Program

end MixAsm
