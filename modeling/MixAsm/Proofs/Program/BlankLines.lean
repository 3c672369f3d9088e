import MixAsm.Proofs.Instruction.Language
import MixAsm.Proofs.Instruction.Options
import MixAsm.Proofs.Program.Readings

namespace MixAsm

/-!
# Blank lines

A blank line writes no instruction, whatever the reader takes. So to pass over blank lines is to
leave out errors: each of the other lines keeps its number and what reading it gives, and no
instruction is lost.

* `Config.passing`, `Config.keeping` — the two readers;
* `Program.lines_passing` — the lines that the one leaves out;
* `Program.blank_lines_hide_nothing` — what the two make of a text.
-/

namespace Config

/-- The reader that passes over blank lines, and is otherwise the same. -/
def passing (cfg : Config) : Config := { cfg with skipBlankLines := true }

/-- The reader that reads blank lines too, and is otherwise the same. -/
def keeping (cfg : Config) : Config := { cfg with skipBlankLines := false }

variable {cfg : Config} {line : String}

@[simp] theorem skips_passing : cfg.passing.skips line = Text.isBlank line.toList := rfl

@[simp] theorem skips_keeping : cfg.keeping.skips line = false := rfl

end Config

variable {cfg : Config} {line : String}

/-- A line is read alike where blank lines are passed over and where they are read. -/
theorem Instruction.parse_passing : parse cfg.passing line = parse cfg.keeping line := by
  have hcase : cfg.passing.caseInsensitive = cfg.keeping.caseInsensitive := rfl
  have hspaces : cfg.passing.collapseSpaces = cfg.keeping.collapseSpaces := rfl
  exact parse_congr hcase hspaces line

/-- A blank line writes no instruction. -/
theorem Instruction.exists_error_of_isBlank (h : Text.isBlank line.toList) :
    ∃ e, parse cfg line = .error e := by
  cases hparse : parse cfg line with
  | ok ins =>
    rw [isBlank_of_parse hparse] at h
    cases h
  | error e => exact ⟨e, rfl⟩

namespace Program

variable {text : String}

/-- Of the lines that are read where blank ones are read too, the blank ones are left out. -/
theorem lines_passing :
    (parse cfg.passing text).lines
      = (parse cfg.keeping text).lines.filter fun l => !Text.isBlank l.source.toList := by
  rw [lines_parse, lines_parse, linesFrom, linesFrom, List.filter_filterMap]
  congr 1
  funext x
  obtain ⟨line, n⟩ := x
  by_cases h : Text.isBlank line.toList
  · simp [reading, h, Option.filter]
  · simp [reading, h, Option.filter, Instruction.parse_passing]

/-- What is read of a blank line is an error. -/
theorem exists_error_of_mem_lines {l : ParsedLine} (hl : l ∈ (parse cfg text).lines)
    (h : Text.isBlank l.source.toList) :
    ∃ e, l.result = .error e ∧ Instruction.parse cfg l.source = .error e := by
  obtain ⟨l, -, rfl⟩ := List.mem_map.mp hl
  obtain ⟨e, he⟩ := Instruction.exists_error_of_isBlank h
  exact ⟨e, he, he⟩

/-- The lines that are left out are no instructions. -/
theorem instructions_passing :
    (parse cfg.passing text).instructions = (parse cfg.keeping text).instructions := by
  unfold instructions
  rw [lines_passing, List.filterMap_filter]
  apply List.filterMap_congr
  intro l hl
  by_cases h : Text.isBlank l.source.toList
  · obtain ⟨e, he, -⟩ := exists_error_of_mem_lines hl h
    simp [h, ParsedLine.instruction?, he, Except.toOption]
  · simp [h]

/-- **Blank lines.** A text has as many lines and the same instructions on the same of them whether
    blank lines are passed over or read. Those that are passed over are all that is left out of the
    lines that are read, and reading gives an error for each. -/
theorem blank_lines_hide_nothing (cfg : Config) (text : String) :
    let passed := parse cfg.passing text
    let kept := parse cfg.keeping text
    passed.sourceLines = kept.sourceLines ∧
      passed.instructions = kept.instructions ∧
      passed.lines = kept.lines.filter (fun l => !Text.isBlank l.source.toList) ∧
      ∀ l ∈ kept.lines, Text.isBlank l.source.toList →
        ∃ e, l.result = .error e ∧ Instruction.parse cfg.keeping l.source = .error e := by
  intro passed kept
  exact ⟨rfl, instructions_passing, lines_passing, fun l hl => exists_error_of_mem_lines hl⟩

/-- Two spaces that collapse to nothing are a blank line, and an error where it is read. -/
theorem blank_lines_hide_nothing_spaces :
    Text.isBlank "  ".toList ∧
      ∃ l ∈ (parse (Config.keeping ⟨true, true, true⟩) "nop\n  \nhalt").lines,
        l.toNumberedLine = ⟨2, "  "⟩ ∧ ∃ e, l.result = .error e := by
  have hblank : Text.isBlank "  ".toList := by decide
  have hline : (⟨2, "  "⟩ : NumberedLine)
      ∈ numberedLines (Config.keeping ⟨true, true, true⟩) "nop\n  \nhalt" := by
    decide +kernel
  have hread : NumberedLine.parse (Config.keeping ⟨true, true, true⟩) ⟨2, "  "⟩
      ∈ (parse (Config.keeping ⟨true, true, true⟩) "nop\n  \nhalt").lines :=
    List.mem_map_of_mem hline
  obtain ⟨-, -, -, herror⟩ := blank_lines_hide_nothing ⟨true, true, true⟩ "nop\n  \nhalt"
  obtain ⟨e, he, -⟩ := herror _ hread hblank
  exact ⟨hblank, _, hread, rfl, e, he⟩

end Program

end MixAsm
