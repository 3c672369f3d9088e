import MixAsm.Proofs.Instruction.RoundTrip
import MixAsm.Proofs.Program.Layout
import MixAsm.Report

namespace MixAsm

/-!
# Formatting a formatted text

The canonical text of a program means what the program's own text means, to a reader with any
configuration that passes over the lines that were left empty, and formatting it again changes
nothing.

* `LaidOut.reading_eq` — a line of a layout is read as the line that it stands for;
* `Program.readings_of_render` — so is each line of a canonical text;
* `Program.render_stable` — the canonical text as a program.
-/

variable {cfg cfg₂ : Config} {text out : String}

/-! ### Lines of a layout -/

namespace LaidOut

variable {r : Option (Except ParseError Instruction)} {s : String}

theorem isLine (h : LaidOut r s) : Text.IsLine s.toList := by
  cases h with
  | skipped => exact ⟨by simp, by simp⟩
  | read ins => exact Instruction.isLine_of_parse (ins.parse_canonical {})

/-- A line of a layout is read as the line that it stands for, whatever the configuration; but an
    empty line has to be passed over to stand for one that was. -/
theorem reading_eq (h : LaidOut r s) (hskip : cfg.skipBlankLines ∨ r ≠ none) :
    reading cfg s = r := by
  cases h with
  | skipped =>
    -- the reading is nothing, so what is asked is that blank lines are passed over
    have hskip : cfg.skipBlankLines := by simpa using hskip
    simp [reading, Config.skips, Text.isBlank, hskip]
  | read ins =>
    have hparse := ins.parse_canonical cfg
    have hblank := Instruction.isBlank_of_parse hparse
    simp [reading, Config.skips, hblank, hparse]

end LaidOut

namespace Program

/-! ### Readings of a canonical text -/

/-- A canonical text has the lines of the layout. -/
theorem lines_of_laidOut {rs : List (Option (Except ParseError Instruction))} {ls : List String}
    (h : List.Forall₂ LaidOut rs ls) : Text.lines (String.join (ls.map (· ++ "\n"))) = ls := by
  apply Text.lines_join
  intro l hl
  obtain ⟨r, hr⟩ := exists_laidOut_of_mem h hl
  exact hr.isLine

/-- Lines that stand for some readings are read as these. -/
theorem map_reading_of_laidOut {rs : List (Option (Except ParseError Instruction))}
    {ls : List String} (h : List.Forall₂ LaidOut rs ls)
    (hskip : cfg.skipBlankLines ∨ none ∉ rs) : ls.map (reading cfg) = rs := by
  induction h with
  | nil => rfl
  | @cons r l rs ls hl _ ih =>
    have hl' : reading cfg l = r := by
      apply hl.reading_eq
      refine hskip.imp_right fun hnone hr => hnone ?_
      rw [hr]
      exact List.mem_cons_self
    have hls : ls.map (reading cfg) = rs := by
      apply ih
      exact hskip.imp_right fun hnone hmem => hnone (List.mem_cons_of_mem r hmem)
    rw [List.map_cons, hl', hls]

/-- A canonical text is read line by line as the text it was made of. -/
theorem readings_of_render (h : (parse cfg text).render = .ok out)
    (hskip : cfg₂.skipBlankLines ∨ none ∉ readings cfg text) :
    readings cfg₂ out = readings cfg text := by
  obtain ⟨ls, hls, rfl⟩ := render_parse_eq_ok_iff.mp h
  rw [readings, lines_of_laidOut hls]
  exact map_reading_of_laidOut hls hskip

/-! ### A canonical text as a program -/

/-- The program `q` has no errors, the instructions of `p` on the same lines of as many, and the
    canonical text `out`. -/
structure Restates (q p : Program) (out : String) : Prop where
  errors_eq : q.errors = []
  instructions_eq : q.instructions = p.instructions
  sourceLines_eq : q.sourceLines = p.sourceLines
  render_eq : q.render = .ok out

/-- Where blank lines are passed over, or none was, a canonical text restates the program that it
    was made of. -/
theorem restates_of_render (h : (parse cfg text).render = .ok out)
    (hskip : cfg₂.skipBlankLines ∨ ∀ l ∈ Text.lines text, cfg.skips l = false) :
    Restates (parse cfg₂ out) (parse cfg text) out := by
  -- a line has no reading exactly if it was passed over
  have hnone : cfg₂.skipBlankLines ∨ none ∉ readings cfg text := by
    refine hskip.imp_right fun hskips hmem => ?_
    obtain ⟨l, hl, hread⟩ := List.mem_map.mp hmem
    have hl' := hskips l hl
    rw [reading_eq_none_iff.mp hread] at hl'
    cases hl'
  have hreadings : readings cfg₂ out = readings cfg text := readings_of_render h hnone
  have hrender : (parse cfg₂ out).render = .ok out := by
    rwa [render_parse_eq_ok_iff, hreadings, ← render_parse_eq_ok_iff]
  refine ⟨errors_of_render hrender, ?_, ?_, hrender⟩
  · rw [instructions_parse, hreadings, instructions_parse]
  · rw [sourceLines_parse, hreadings, sourceLines_parse]

/-- A configuration that passes over no blank line passes over no line. -/
theorem skipBlankLines_or_skips (cfg : Config) (text : String) :
    cfg.skipBlankLines ∨ ∀ l ∈ Text.lines text, cfg.skips l = false := by
  by_cases hskip : cfg.skipBlankLines
  · exact .inl hskip
  · exact .inr fun l _ => by simp [Config.skips, hskip]

/-- **Stability.** The canonical text of a program restates it, under every configuration that
    passes over blank lines, and under any configuration if no line was passed over. So formatting
    a formatted text changes nothing, and the strict grammar takes it as it was meant. -/
theorem render_stable (h : (parse cfg text).render = .ok out) :
    (∀ cfg₂ : Config, cfg₂.skipBlankLines ∨ (∀ l ∈ Text.lines text, cfg.skips l = false) →
      Restates (parse cfg₂ out) (parse cfg text) out) ∧
      Formatted.ofSource cfg out = .ok ⟨out, false⟩ ∧
      Restates (parse {} out) (parse cfg text) out := by
  refine ⟨fun cfg₂ hskip => restates_of_render h hskip, ?_, restates_of_render h (.inl rfl)⟩
  have hself := restates_of_render h (skipBlankLines_or_skips cfg text)
  simp [Formatted.ofSource, hself.render_eq, Except.map]

/-- A text with small letters, spare spaces and zeros, an empty line and no line feed at its end. -/
theorem render_stable_lenient :
    (parse ⟨true, true, true⟩ " lda  010,1\n\nnop").render = .ok "LDA 10,1\n\nNOP\n" ∧
      Restates (parse ⟨true, false, true⟩ "LDA 10,1\n\nNOP\n")
        (parse ⟨true, true, true⟩ " lda  010,1\n\nnop") "LDA 10,1\n\nNOP\n" ∧
      Formatted.ofSource ⟨true, true, true⟩ "LDA 10,1\n\nNOP\n"
        = .ok ⟨"LDA 10,1\n\nNOP\n", false⟩ := by
  have hrender : (parse ⟨true, true, true⟩ " lda  010,1\n\nnop").render
      = .ok "LDA 10,1\n\nNOP\n" := by
    decide +kernel
  obtain ⟨hrestates, hformatted, -⟩ := render_stable hrender
  exact ⟨hrender, hrestates ⟨true, false, true⟩ (.inl rfl), hformatted⟩

end Program

end MixAsm
