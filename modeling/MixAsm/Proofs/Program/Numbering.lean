import Mathlib.Data.List.Sort
import MixAsm.Proofs.Program.Parallel
import MixAsm.Proofs.Program.Validity
import MixAsm.Proofs.Text.LineEnds

namespace MixAsm

/-!
# Lines keep their numbers

A program holds the lines of its text that are not passed over, each behind its number in the text
and with what reading it alone gives. Lines are numbered before any is passed over, and the numbers
stay as they are when the lines are shared among threads.

* `Program.Represents` — what a program holds of a text;
* `Program.mem_lines_parse_iff` — the lines of a program;
* `Program.represents_iff` — no other program holds this of the text;
* `Program.represents_text` — every program that is read.
-/

open Text (lineAt?)

variable {cfg : Config} {text : String}

namespace Program

/-- The program holds the lines of the text that are not passed over, in order, with their numbers
    and with what reading each gives. -/
structure Represents (cfg : Config) (text : String) (p : Program) : Prop where
  sourceLines_eq : p.sourceLines = (Text.lines text).length
  increasing : p.lines.Pairwise fun l l' => l.number < l'.number
  number_bounds : ∀ l ∈ p.lines, 1 ≤ l.number ∧ l.number ≤ p.sourceLines
  source_eq : ∀ l ∈ p.lines, lineAt? text l.number = some l.source
  newline_not_mem : ∀ l ∈ p.lines, '\n' ∉ l.source.toList
  result_eq : ∀ l ∈ p.lines, l.result = Instruction.parse cfg l.source
  missing_iff : ∀ n, 1 ≤ n → n ≤ p.sourceLines →
    ((∀ l ∈ p.lines, l.number ≠ n) ↔
      cfg.skipBlankLines ∧
        ∃ line, lineAt? text n = some line ∧ ∀ c ∈ line.toList, Text.isBlankChar c)

/-! ### The lines of a program -/

/-- What is known of a number that no line has says that the line with the number in the text is
    passed over. -/
theorem skips_iff_of_lineAt? {n : Nat} {line : String} (h : lineAt? text n = some line) :
    (cfg.skipBlankLines ∧
        ∃ line, lineAt? text n = some line ∧ ∀ c ∈ line.toList, Text.isBlankChar c) ↔
      cfg.skips line := by
  simp only [h, Option.some.injEq, exists_eq_left', Config.skips_iff]

/-- A line is in a program exactly if it is the line with its number in the text and is read. -/
theorem mem_lines_parse_iff {l : ParsedLine} :
    l ∈ (parse cfg text).lines ↔
      lineAt? text l.number = some l.source ∧ reading cfg l.source = some l.result := by
  rw [lines_parse, linesFrom, List.mem_filterMap, Text.lineAt?_eq_some_iff]
  simp only [Option.map_eq_some_iff]
  constructor
  · rintro ⟨⟨line, n⟩, hmem, r, hr, rfl⟩
    exact ⟨List.mem_zipIdx_iff_le_and_getElem?_sub.mp hmem, hr⟩
  · rintro ⟨hline, hr⟩
    exact ⟨(l.source, l.number), List.mem_zipIdx_iff_le_and_getElem?_sub.mpr hline, l.result, hr,
      rfl⟩

/-- The program of a text holds what it should. -/
theorem represents_parse (cfg : Config) (text : String) : Represents cfg text (parse cfg text) := by
  have hsource : ∀ l ∈ (parse cfg text).lines, lineAt? text l.number = some l.source := by
    intro l hl
    exact (mem_lines_parse_iff.mp hl).1
  refine ⟨rfl, pairwise_number_parse, fun l hl => ?_, hsource, fun l hl => ?_, fun l hl => ?_,
    fun n hn hle => ?_⟩
  · exact Text.exists_lineAt?_iff.mp ⟨_, hsource l hl⟩
  · exact Text.newline_not_mem_of_lineAt? (hsource l hl)
  · exact (reading_eq_some_iff.mp (mem_lines_parse_iff.mp hl).2).2
  · obtain ⟨line, hline⟩ := Text.exists_lineAt?_iff.mpr ⟨hn, hle⟩
    rw [skips_iff_of_lineAt? hline]
    constructor
    · intro hmissing
      by_contra hskips
      refine hmissing ⟨⟨n, line⟩, Instruction.parse cfg line⟩ ?_ rfl
      exact mem_lines_parse_iff.mpr ⟨hline, reading_eq_some_iff.mpr ⟨hskips, rfl⟩⟩
    · rintro hskips l hl rfl
      obtain ⟨hl, hread⟩ := mem_lines_parse_iff.mp hl
      obtain rfl : line = l.source := Option.some.inj (hline.symm.trans hl)
      exact (reading_eq_some_iff.mp hread).1 hskips

/-! ### No other program -/

namespace Represents

variable {p q : Program}

/-- What a program should hold leaves no choice which lines it has. -/
theorem mem_lines_iff (h : Represents cfg text p) {l : ParsedLine} :
    l ∈ p.lines ↔
      lineAt? text l.number = some l.source ∧ reading cfg l.source = some l.result := by
  have hmissing : lineAt? text l.number = some l.source →
      ((∀ l' ∈ p.lines, l'.number ≠ l.number) ↔ cfg.skips l.source) := by
    intro hline
    obtain ⟨hn, hle⟩ := Text.exists_lineAt?_iff.mp ⟨_, hline⟩
    rw [h.missing_iff _ hn (by rwa [h.sourceLines_eq]), skips_iff_of_lineAt? hline]
  constructor
  · intro hl
    have hline := h.source_eq l hl
    refine ⟨hline, reading_eq_some_iff.mpr ⟨fun hskips => ?_, h.result_eq l hl⟩⟩
    exact (hmissing hline).mpr hskips l hl rfl
  · rintro ⟨hline, hread⟩
    obtain ⟨hskips, hresult⟩ := reading_eq_some_iff.mp hread
    rw [← hmissing hline] at hskips
    push Not at hskips
    -- some line has the number, and nothing else of it was left open
    obtain ⟨l', hl', hnumber⟩ := hskips
    have hsource : l'.source = l.source := by
      have hline' := h.source_eq l' hl'
      rw [hnumber, hline] at hline'
      exact (Option.some.inj hline').symm
    have hresult' : l'.result = l.result := by
      rw [h.result_eq l' hl', hsource, hresult]
    obtain ⟨⟨_, _⟩, _⟩ := l
    obtain ⟨⟨_, _⟩, _⟩ := l'
    cases hnumber
    cases hsource
    cases hresult'
    exact hl'

theorem lines_eq (hp : Represents cfg text p) (hq : Represents cfg text q) :
    p.lines = q.lines := by
  let before := fun l l' : ParsedLine => l.number < l'.number
  have hirrefl : Std.Irrefl before := ⟨fun l => Nat.lt_irrefl l.number⟩
  have hantisymm : Std.Antisymm before := ⟨fun _ _ hlt hgt => absurd hlt (Nat.lt_asymm hgt)⟩
  refine hp.increasing.eq_of_mem_iff hq.increasing fun l => ?_
  rw [hp.mem_lines_iff, hq.mem_lines_iff]

end Represents

/-- The program of a text is the only one that holds what it should. -/
theorem represents_iff {p : Program} : Represents cfg text p ↔ p = parse cfg text := by
  constructor
  · intro h
    have hparse := represents_parse cfg text
    have hlines : p.lines = (parse cfg text).lines := h.lines_eq hparse
    have hcount : p.sourceLines = (parse cfg text).sourceLines := h.sourceLines_eq
    calc p = ⟨p.lines, p.sourceLines⟩ := rfl
      _ = parse cfg text := by rw [hlines, hcount]
  · rintro rfl
    exact represents_parse cfg text

/-! ### On any number of threads -/

/-- What the threads read, put together in the order of their runs, holds what it should. -/
theorem represents_parseParallel (cfg : Config) (text : String) (limit : Option Nat)
    (requested : Nat) : Represents cfg text (parseParallel cfg limit requested text) := by
  have hlines : (parseParallel cfg limit requested text).lines = (parse cfg text).lines :=
    flatMap_threads cfg _ (numberedLines cfg text)
  rw [represents_iff]
  calc parseParallel cfg limit requested text
      = ⟨(parseParallel cfg limit requested text).lines, (parse cfg text).sourceLines⟩ := rfl
    _ = parse cfg text := by rw [hlines]

/-- **Numbering.** The lines of a text are the only ones that make it up. A program that is read of
    the text, on one thread or shared among any number, holds these lines but for those that are
    passed over: in order, each with its number, without its end, and with what reading it alone
    gives. -/
theorem represents_text (cfg : Config) (text : String) (limit : Option Nat) (requested : Nat) :
    (∀ ls, Text.Lined ls text.toList ↔ ls = (Text.lines text).map String.toList) ∧
      Represents cfg text (parse cfg text) ∧
      Represents cfg text (parseParallel cfg limit requested text) := by
  have hlines : (Text.lines text).map String.toList = Text.splitLines text.toList := by
    simp [Text.lines, Function.comp_def]
  refine ⟨fun ls => ?_, represents_parse cfg text,
    represents_parseParallel cfg text limit requested⟩
  rw [← Text.splitLines_eq_iff, hlines, eq_comm]

/-- Lines of either end, with two passed over and the last one not ended. -/
example : (parse {} "\u3000\r\nNOP\n\nHLT\r").lines.map (·.toNumberedLine)
    = [⟨2, "NOP"⟩, ⟨4, "HLT\r"⟩] := by
  decide +kernel

end Program

end MixAsm
