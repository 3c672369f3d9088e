import MixAsm.Instruction.Json
import MixAsm.ParseError.Json
import MixAsm.Program.Layout
import MixAsm.Program.Summary
import MixAsm.Mnemonic.Listing
import MixAsm.Text.Pad

namespace MixAsm

/-!
# Reports on a text

What is told about a text after it is read.

* `Diagnostic` — one bad line, shown with a caret under the fault;
* `Report` — the counts and the bad lines;
* `Entry` — every line that was read, for machines;
* `Formatted` — the canonical text, and whether it differs from what was there.
-/

/-! ### Diagnostics -/

/-- A bad line of a file. -/
structure Diagnostic where
  file : String
  line : Nat
  column : Nat
  kind : ErrorKind
  message : String
  source : String
  deriving DecidableEq, Repr

namespace Diagnostic

/-- Four lines: the place and the message, an empty margin, the bad line behind its number, and a
    caret under the column. -/
def render (d : Diagnostic) : String :=
  let margin := Text.spaces (toString d.line).length
  let caret := Text.padLeft d.column "^"
  s!"{d.file}:{d.line}:{d.column}: error: {d.message}\n {margin} |\n" ++
    s!" {d.line} | {d.source}\n {margin} | {caret}\n"

/-- The diagnostic as a value. -/
def toJson (d : Diagnostic) : Json :=
  .record [("file", .str d.file), ("line", .nat d.line), ("column", .nat d.column),
    ("kind", d.kind.toJson), ("message", .str d.message), ("source", .str d.source)]

end Diagnostic

/-- The diagnostic of an error on a line of a file. -/
def ParsedLine.diagnosticOf (file : String) (l : ParsedLine) (e : ParseError) : Diagnostic :=
  ⟨file, l.number, e.column, e.kind, e.message, l.source⟩

/-- The diagnostic of a line, if the line is bad. -/
def ParsedLine.diagnostic? (file : String) (l : ParsedLine) : Option Diagnostic :=
  match l.result with
  | .ok _ => none
  | .error e => some (l.diagnosticOf file e)

/-- The diagnostics of the bad lines, in order. -/
def Program.diagnostics (file : String) (p : Program) : List Diagnostic :=
  p.lines.filterMap (ParsedLine.diagnostic? file)

/-! ### Checking -/

/-- The counts as a value. -/
def Summary.toJson (s : Summary) : Json :=
  .record [("lines", .nat s.lines), ("instructions", .nat s.instructions),
    ("errors", .nat s.errors),
    ("by_category", .record (s.byCategory.map fun (c, n) => (c.key, .nat n)))]

/-- The outcome of checking a file. -/
structure Report where
  file : String
  summary : Summary
  diagnostics : List Diagnostic
  deriving DecidableEq, Repr

/-- The report on a program read from a file. -/
def Program.check (file : String) (p : Program) : Report := ⟨file, p.summary, p.diagnostics file⟩

/-- The report as a value. -/
def Report.toJson (r : Report) : Json :=
  .record [("file", .str r.file), ("summary", r.summary.toJson),
    ("diagnostics", .array (r.diagnostics.map Diagnostic.toJson))]

/-! ### Dumping -/

/-- A line that was read, with its instruction or its diagnostic. -/
structure Entry where
  line : Nat
  source : String
  outcome : Except Diagnostic Instruction

/-- The entry of a line of a file. -/
def ParsedLine.entry (file : String) (l : ParsedLine) : Entry where
  line := l.number
  source := l.source
  outcome := l.result.mapError (l.diagnosticOf file)

/-- An entry for every line that was read, in order. -/
def Program.dump (file : String) (p : Program) : List Entry := p.lines.map (ParsedLine.entry file)

/-- The entry as a value. The instruction stands with its canonical text; a member that does not
    apply is left out. -/
def Entry.toJson (e : Entry) : Json :=
  .record ([("line", .nat e.line), ("source", .str e.source)] ++ match e.outcome with
    | .ok ins => [("instruction", ins.toJson), ("canonical", .str ins.canonical)]
    | .error d => [("error", d.toJson)])

/-- Entries as a value. -/
def Entry.listToJson (es : List Entry) : Json := .array (es.map toJson)

/-! ### Formatting -/

/-- A canonical text, and whether it differs from the text it was made of. -/
structure Formatted where
  text : String
  changed : Bool
  deriving DecidableEq, Repr

/-- The canonical form of a text, or its first error. -/
def Formatted.ofSource (cfg : Config) (source : String) : Except LineError Formatted :=
  (Program.parse cfg source).render.map fun text => ⟨text, text ≠ source⟩

/-! ### The table -/

/-- An opcode of the table as a value. -/
def Mnemonic.rowToJson (m : Mnemonic) : Json :=
  .record [("mnemonic", .str m.name), ("category", m.category.toJson)]

/-- The opcodes of some categories as a value. -/
def Mnemonic.tableToJson (s : CategorySet) : Json := .array ((listing s).map rowToJson)

end MixAsm
