import MixAsm.Proofs.Instruction.IllegalCharacter
import MixAsm.Proofs.Program.Formatting
import MixAsm.Proofs.Text.LineEnds

namespace MixAsm

/-!
# Programs with either end of a line

What a text means does not depend on how its lines end. Its canonical text is the same with either
end too, and always has plain line feeds, so that a text with carriage returns is never canonical.

* `Program.parse_withReturns` — the program of a text with carriage returns;
* `Program.return_not_mem_render` — the ends of a canonical text;
* `Program.line_ends_alike` — reading and formatting with either end.
-/

variable {cfg : Config} {text out : String}

/-- A line of a layout has no carriage return. -/
theorem LaidOut.return_not_mem {r : Option (Except ParseError Instruction)} {s : String}
    (h : LaidOut r s) : '\r' ∉ s.toList := by
  cases h with
  | skipped => simp
  | read ins =>
    intro hmem
    -- the canonical text is itself a line that is read
    have hadmits := Instruction.admits_of_parse (ins.parse_canonical {}) '\r' hmem
    simp [Config.Admits, Char.le_def] at hadmits

namespace Program

/-- A text with carriage returns is read as the text without. -/
theorem parse_withReturns (h : '\r' ∉ text.toList) :
    parse cfg (Text.withReturns text) = parse cfg text := by
  unfold parse numberedLines
  rw [Text.lines_withReturns h]

/-- A canonical text has no carriage returns. -/
theorem return_not_mem_render (h : (parse cfg text).render = .ok out) : '\r' ∉ out.toList := by
  obtain ⟨ls, hls, rfl⟩ := render_parse_eq_ok_iff.mp h
  intro hmem
  simp only [String.toList_join, List.mem_flatMap, List.mem_map] at hmem
  obtain ⟨_, ⟨l, hl, rfl⟩, hmem⟩ := hmem
  obtain ⟨r, hr⟩ := exists_laidOut_of_mem hls hl
  rw [String.toList_append, List.mem_append] at hmem
  rcases hmem with hmem | hmem
  · exact hr.return_not_mem hmem
  · simp at hmem

/-- **Line ends.** A text without carriage returns is read as the same program, and formatted to the
    same text or refused for the same error, if one is put in front of each line feed. If there is
    a line feed, formatting then changes the text. -/
theorem line_ends_alike (h : '\r' ∉ text.toList) :
    parse cfg (Text.withReturns text) = parse cfg text ∧
      (Formatted.ofSource cfg (Text.withReturns text)).map Formatted.text
        = (Formatted.ofSource cfg text).map Formatted.text ∧
      ('\n' ∈ text.toList → ∀ formatted,
        Formatted.ofSource cfg (Text.withReturns text) = .ok formatted → formatted.changed) := by
  have hparse : parse cfg (Text.withReturns text) = parse cfg text := parse_withReturns h
  refine ⟨hparse, ?_, fun hnewline formatted hformatted => ?_⟩
  · unfold Formatted.ofSource
    rw [hparse]
    cases (parse cfg text).render <;> rfl
  · obtain ⟨out, hrender, rfl⟩ := map_eq_ok_iff.mp hformatted
    -- the one text has a carriage return, and the other has none
    have hne : out ≠ Text.withReturns text := by
      rintro rfl
      exact return_not_mem_render hrender (Text.return_mem_withReturns hnewline)
    exact decide_eq_true hne

/-- A canonical text is no longer canonical with carriage returns, but formatted to itself. -/
theorem line_ends_alike_canonical :
    '\r' ∉ "NOP\n\nHALT\n".toList ∧ '\n' ∈ "NOP\n\nHALT\n".toList ∧
      ∃ formatted, Formatted.ofSource {} "NOP\r\n\r\nHALT\r\n" = .ok formatted ∧
        formatted.text = "NOP\n\nHALT\n" ∧ formatted.changed := by
  have hreturn : '\r' ∉ "NOP\n\nHALT\n".toList := by decide
  have hnewline : '\n' ∈ "NOP\n\nHALT\n".toList := by decide
  have hends : Text.withReturns "NOP\n\nHALT\n" = "NOP\r\n\r\nHALT\r\n" := by decide +kernel
  have hplain : Formatted.ofSource {} "NOP\n\nHALT\n" = .ok ⟨"NOP\n\nHALT\n", false⟩ := by
    decide +kernel
  obtain ⟨-, htext, hchanged⟩ := @line_ends_alike {} "NOP\n\nHALT\n" hreturn
  rw [hends, hplain] at htext
  rw [hends] at hchanged
  obtain ⟨formatted, hformatted, htext⟩ := map_eq_ok_iff.mp htext
  exact ⟨hreturn, hnewline, formatted, hformatted, htext, hchanged hnewline formatted hformatted⟩

end Program

end MixAsm
