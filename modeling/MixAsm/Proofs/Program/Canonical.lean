import MixAsm.Proofs.Lists
import MixAsm.Proofs.Program.Formatting
import MixAsm.Proofs.Text.LineEnds

namespace MixAsm

/-!
# Canonical texts

A text is canonical if each of its lines is the canonical text of an instruction, or empty where
blank lines are passed over, and a line feed ends each of them. Formatting leaves these texts as
they are, and no others. What any text is formatted to has each instruction on the line that it was
read from.

* `LaidOut.reading_iff` — the line that stands for a line of a text;
* `IsCanonical` — the canonical texts;
* `Formatted.unchanged_iff` — the texts that formatting leaves as they are;
* `Program.render_keeps_lines` — the lines of a program's canonical text.
-/

variable {cfg : Config} {text out : String} {s l : String}

/-! ### Line by line -/

/-- An empty line stands for one that is passed over, and the canonical text of the instruction for
    one that is read. -/
theorem LaidOut.reading_iff :
    LaidOut (reading cfg s) l ↔
      cfg.skips s ∧ l = "" ∨
        ¬ cfg.skips s ∧ ∃ ins, Instruction.parse cfg s = .ok ins ∧ l = ins.canonical := by
  constructor
  · intro h
    cases hread : reading cfg s with
    | none =>
      rw [hread] at h
      cases h
      exact .inl ⟨reading_eq_none_iff.mp hread, rfl⟩
    | some r =>
      rw [hread] at h
      obtain ⟨hskips, hresult⟩ := reading_eq_some_iff.mp hread
      cases h with
      | read ins => exact .inr ⟨hskips, ins, hresult.symm, rfl⟩
  · rintro (⟨hskips, rfl⟩ | ⟨hskips, ins, hparse, rfl⟩)
    · rw [reading_eq_none_iff.mpr hskips]
      exact .skipped
    · rw [reading_eq_some_iff.mpr ⟨hskips, hparse.symm⟩]
      exact .read ins

/-- The line is the canonical text of an instruction, or empty where blank lines are passed over. -/
def IsCanonicalLine (cfg : Config) (l : String) : Prop :=
  (∃ ins : Instruction, l = ins.canonical) ∨ cfg.skipBlankLines ∧ l = ""

/-- The canonical lines are those that stand for themselves. -/
theorem laidOut_self_iff : LaidOut (reading cfg l) l ↔ IsCanonicalLine cfg l := by
  constructor
  · intro h
    rcases LaidOut.reading_iff.mp h with ⟨hskips, hl⟩ | ⟨-, ins, -, hl⟩
    · exact .inr ⟨(Config.skips_iff.mp hskips).1, hl⟩
    · exact .inl ⟨ins, hl⟩
  · rintro (⟨ins, rfl⟩ | ⟨hskip, rfl⟩)
    · have hline := LaidOut.read ins
      rwa [hline.reading_eq (.inr (by simp))]
    · have hline := LaidOut.skipped
      rwa [hline.reading_eq (.inl hskip)]

theorem IsCanonicalLine.isLine (h : IsCanonicalLine cfg l) : Text.IsLine l.toList :=
  (laidOut_self_iff.mpr h).isLine

/-! ### Texts that stay as they are -/

/-- A line feed ends each line of the text, and each is canonical. -/
def IsCanonical (cfg : Config) (text : String) : Prop :=
  ∃ ls : List String, (∀ l ∈ ls, IsCanonicalLine cfg l) ∧
    text = String.join (ls.map (· ++ "\n"))

namespace Program

/-- Each line of the layout stands for the line of the text in its place. -/
theorem forall₂_readings_iff {ls : List String} :
    List.Forall₂ LaidOut (readings cfg text) ls ↔
      List.Forall₂ (fun s l => LaidOut (reading cfg s) l) (Text.lines text) ls := by
  rw [readings, List.forall₂_map_left_iff]

theorem render_eq_self_iff : (parse cfg text).render = .ok text ↔ IsCanonical cfg text := by
  rw [render_parse_eq_ok_iff]
  constructor
  · rintro ⟨ls, hls, hjoin⟩
    have hlines : Text.lines text = ls := by rw [← hjoin, lines_of_laidOut hls]
    rw [forall₂_readings_iff, hlines, List.forall₂_same] at hls
    exact ⟨ls, fun l hl => laidOut_self_iff.mp (hls l hl), hjoin.symm⟩
  · rintro ⟨ls, hls, hjoin⟩
    have hlines : Text.lines text = ls := by
      rw [hjoin]
      exact Text.lines_join fun l hl => (hls l hl).isLine
    refine ⟨ls, ?_, hjoin.symm⟩
    rw [forall₂_readings_iff, hlines, List.forall₂_same]
    exact fun l hl => laidOut_self_iff.mpr (hls l hl)

end Program

/-- **Canonical texts.** Formatting leaves a text as it is exactly if the text is canonical. -/
theorem Formatted.unchanged_iff (cfg : Config) (source : String) :
    (∃ formatted, Formatted.ofSource cfg source = .ok formatted ∧ formatted.changed = false) ↔
      IsCanonical cfg source := by
  rw [← Program.render_eq_self_iff]
  simp only [Formatted.ofSource, map_eq_ok_iff]
  constructor
  · rintro ⟨_, ⟨out, hrender, rfl⟩, hchanged⟩
    obtain rfl : out = source := by simpa using hchanged
    exact hrender
  · intro hrender
    exact ⟨_, ⟨source, hrender, rfl⟩, by simp⟩

/-! ### Instructions keep their lines -/

namespace Program

/-- **Lines.** The canonical text of a program has a line for each line of the program's text, and
    ends each. In every place it has the canonical text of the instruction that was read there, or
    an empty line if the line there was passed over. -/
theorem render_keeps_lines (h : (parse cfg text).render = .ok out) :
    Text.IsWhole out ∧
      out.toList.count '\n' = (parse cfg text).sourceLines ∧
      ∀ k, 1 ≤ k → k ≤ (parse cfg text).sourceLines →
        ∃ source line, Text.lineAt? text k = some source ∧ Text.lineAt? out k = some line ∧
          (cfg.skips source ∧ line = "" ∨
            ¬ cfg.skips source ∧
              ∃ ins, Instruction.parse cfg source = .ok ins ∧ line = ins.canonical) := by
  obtain ⟨ls, hls, rfl⟩ := render_parse_eq_ok_iff.mp h
  have hlines : Text.lines (String.join (ls.map (· ++ "\n"))) = ls := lines_of_laidOut hls
  have hcount : (String.join (ls.map (· ++ "\n"))).toList.count '\n' = ls.length := by
    apply Text.count_newline_join
    intro l hl
    obtain ⟨r, hr⟩ := exists_laidOut_of_mem hls hl
    exact hr.isLine.newline_not_mem
  refine ⟨Text.isWhole_join ls, ?_, fun k hk hle => ?_⟩
  · rw [hcount, ← hls.length_eq, sourceLines_parse]
  · obtain ⟨source, hsource⟩ := Text.exists_lineAt?_iff.mpr ⟨hk, hle⟩
    have hplace := (Text.lineAt?_eq_some_iff.mp hsource).2
    obtain ⟨line, hline, hlaid⟩ :=
      exists_getElem?_of_forall₂ (forall₂_readings_iff.mp hls) hplace
    refine ⟨source, line, hsource, ?_, LaidOut.reading_iff.mp hlaid⟩
    rw [Text.lineAt?_eq_some_iff, hlines]
    exact ⟨hk, hline⟩

/-- A text with blank lines at its start, between its instructions and at its end. -/
theorem render_keeps_lines_blank :
    (parse {} "\n\nNOP\n \n\nJL 010,1\n\n").render = .ok "\n\nNOP\n\n\nJL 10,1\n\n" ∧
      "\n\nNOP\n\n\nJL 10,1\n\n".toList.count '\n'
        = (parse {} "\n\nNOP\n \n\nJL 010,1\n\n").sourceLines ∧
      ∃ ins, Instruction.parse {} "JL 010,1" = .ok ins ∧
        Text.lineAt? "\n\nNOP\n\n\nJL 10,1\n\n" 6 = some ins.canonical := by
  have hrender : (parse {} "\n\nNOP\n \n\nJL 010,1\n\n").render
      = .ok "\n\nNOP\n\n\nJL 10,1\n\n" := by
    decide +kernel
  obtain ⟨-, hcount, hlines⟩ := render_keeps_lines hrender
  obtain ⟨source, line, hsource, hline, hread⟩ := hlines 6 (by decide) (by decide +kernel)
  have hsixth : Text.lineAt? "\n\nNOP\n \n\nJL 010,1\n\n" 6 = some "JL 010,1" := by
    decide +kernel
  obtain rfl : source = "JL 010,1" := Option.some.inj (hsource.symm.trans hsixth)
  refine ⟨hrender, hcount, ?_⟩
  rcases hread with ⟨hskips, -⟩ | ⟨-, ins, hparse, rfl⟩
  · exact absurd hskips (by decide +kernel)
  · exact ⟨ins, hparse, hline⟩

end Program

end MixAsm
