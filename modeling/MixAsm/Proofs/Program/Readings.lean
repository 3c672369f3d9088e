import Mathlib.Data.List.Basic
import MixAsm.Program

namespace MixAsm

/-!
# Readings

What reading gave for each line of a text, in order, with a place for every line that was passed
over. A program tells no more of its text than that, save the text of its lines.

* `reading` — what reading gives for a line;
* `Program.readings` — what it gives for each line of a text;
* `Program.filterMap_lines` — what a program tells, in terms of its readings.
-/

/-- Is the line passed over? -/
def Config.skips (cfg : Config) (line : String) : Bool :=
  cfg.skipBlankLines && Text.isBlank line.toList

/-- A line is passed over exactly if this is asked for and the line holds blank characters only. -/
theorem Config.skips_iff {cfg : Config} {line : String} :
    cfg.skips line ↔ cfg.skipBlankLines ∧ ∀ c ∈ line.toList, Text.isBlankChar c := by
  simp [Config.skips, Text.isBlank]

/-- What reading a line of a text gives; nothing where the line is passed over. -/
def reading (cfg : Config) (line : String) : Option (Except ParseError Instruction) :=
  if cfg.skips line then none else some (Instruction.parse cfg line)

theorem reading_eq_none_iff {cfg : Config} {line : String} :
    reading cfg line = none ↔ cfg.skips line := by
  simp [reading]

theorem reading_eq_some_iff {cfg : Config} {line : String}
    {r : Except ParseError Instruction} :
    reading cfg line = some r ↔ ¬ cfg.skips line ∧ r = Instruction.parse cfg line := by
  rw [reading]
  split
  · next hskips => simp [hskips]
  · next hskips => simp [hskips, eq_comm]

namespace Program

variable {cfg : Config} {text : String}

/-- What reading gives for each line of a text. -/
def readings (cfg : Config) (text : String) : List (Option (Except ParseError Instruction)) :=
  (Text.lines text).map (reading cfg)

theorem sourceLines_parse : (parse cfg text).sourceLines = (readings cfg text).length := by
  rw [readings, List.length_map, parse]

/-! ### Lines -/

/-- What is read of some lines, of which the first has the number `n`. -/
def linesFrom (cfg : Config) (n : Nat) (ls : List String) : List ParsedLine :=
  (ls.zipIdx n).filterMap fun (l, k) => (reading cfg l).map (⟨⟨k, l⟩, ·⟩)

theorem lines_parse : (parse cfg text).lines = linesFrom cfg 1 (Text.lines text) := by
  simp only [parse, numberedLines, List.map_filterMap, linesFrom]
  congr 1
  -- the lines to be read are chosen first and read then, which is the same line by line
  funext ⟨l, k⟩
  by_cases h : cfg.skipBlankLines && Text.isBlank l.toList
  · simp [reading, Config.skips, h]
  · simp [reading, Config.skips, h, NumberedLine.parse]

section

variable {n : Nat} {l : String} {ls : List String}

@[simp] theorem linesFrom_nil : linesFrom cfg n [] = [] := rfl

theorem linesFrom_cons_of_none (h : reading cfg l = none) :
    linesFrom cfg n (l :: ls) = linesFrom cfg (n + 1) ls := by
  simp [linesFrom, h]

theorem linesFrom_cons_of_some {r : Except ParseError Instruction} (h : reading cfg l = some r) :
    linesFrom cfg n (l :: ls) = ⟨⟨n, l⟩, r⟩ :: linesFrom cfg (n + 1) ls := by
  simp [linesFrom, h]

end

/-- **Readings.** What is told of each line from its number and what reading it gave is told from
    the readings of the text. -/
theorem filterMap_lines {β : Type} (f : Nat → Except ParseError Instruction → Option β) :
    (parse cfg text).lines.filterMap (fun l => f l.number l.result) =
      ((readings cfg text).zipIdx 1).filterMap fun (r, n) => r.bind (f n) := by
  rw [lines_parse, linesFrom, List.filterMap_filterMap, readings, List.zipIdx_map,
    List.filterMap_map]
  congr 1
  funext ⟨l, n⟩
  simp only [Function.comp_apply, Prod.map]
  cases reading cfg l <;> rfl

/-- The instruction that was read on the line with the number `n`. -/
def instructionAt (n : Nat) (r : Except ParseError Instruction) : Option (Nat × Instruction) :=
  r.toOption.map (n, ·)

/-- The error that was met on the line with the number `n`. -/
def errorAt (n : Nat) : Except ParseError Instruction → Option LineError
  | .ok _ => none
  | .error e => some ⟨n, e⟩

theorem instructions_parse :
    (parse cfg text).instructions =
      ((readings cfg text).zipIdx 1).filterMap fun (r, n) => r.bind (instructionAt n) :=
  filterMap_lines instructionAt

theorem errors_parse :
    (parse cfg text).errors =
      ((readings cfg text).zipIdx 1).filterMap fun (r, n) => r.bind (errorAt n) :=
  filterMap_lines errorAt

end Program

end MixAsm
