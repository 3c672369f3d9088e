import MixAsm.Instruction.Parser
import MixAsm.Text.Blank
import MixAsm.Text.Lines

namespace MixAsm

/-!
# Programs

A text read line by line. Every line is read on its own and keeps its number in the text, so one
bad line takes nothing from the others.

* `Program.parse` — the program that a text writes;
* `Program.instructions`, `Program.errors` — its good and its bad lines.
-/

/-- A line of a text with its number; the first line has number 1. -/
structure NumberedLine where
  number : Nat
  source : String
  deriving DecidableEq, Repr

/-- A line of a text together with what reading it gave. -/
structure ParsedLine extends NumberedLine where
  result : Except ParseError Instruction

/-- The lines that were read of a text, and the number of lines that the text has. -/
structure Program where
  lines : List ParsedLine
  sourceLines : Nat

/-- The lines of a text that are to be read, with their numbers. -/
def numberedLines (cfg : Config) (text : String) : List NumberedLine :=
  ((Text.lines text).zipIdx 1).filterMap fun (source, number) =>
    if cfg.skipBlankLines && Text.isBlank source.toList then none else some ⟨number, source⟩

/-- Read a numbered line. -/
def NumberedLine.parse (cfg : Config) (l : NumberedLine) : ParsedLine :=
  ⟨l, Instruction.parse cfg l.source⟩

namespace ParsedLine

/-- The instruction on the line, with the line's number. -/
def instruction? (l : ParsedLine) : Option (Nat × Instruction) :=
  l.result.toOption.map (l.number, ·)

/-- The error of the line. -/
def error? (l : ParsedLine) : Option LineError :=
  match l.result with
  | .ok _ => none
  | .error e => some ⟨l.number, e⟩

end ParsedLine

namespace Program

/-- The program that a text writes. -/
def parse (cfg : Config) (text : String) : Program where
  lines := (numberedLines cfg text).map (NumberedLine.parse cfg)
  sourceLines := (Text.lines text).length

/-- The instructions, with the numbers of their lines. -/
def instructions (p : Program) : List (Nat × Instruction) :=
  p.lines.filterMap ParsedLine.instruction?

/-- The errors, in the order of their lines. -/
def errors (p : Program) : List LineError := p.lines.filterMap ParsedLine.error?

/-- Is every line that was read an instruction? -/
def isOk (p : Program) : Bool := p.lines.all (·.result.isOk)

end Program

end MixAsm
