import MixAsm.Program

namespace MixAsm.Program

/-!
# Canonical layout

The text that a program without errors is written back as: each instruction in its canonical text
on the line it was read from, an empty line for every line that was passed over, and a line feed
at the end of each. The first bad line is the error of a program that has any, and no part of a
text is laid out then.

* `layout` — the lines of the text;
* `render` — the text.
-/

/-- The lines from number `next` to the last one. -/
def layoutFrom (sourceLines next : Nat) : List ParsedLine → Except LineError (List String)
  | [] => .ok (List.replicate (sourceLines + 1 - next) "")
  | l :: ls =>
    match l.result with
    | .error e => .error ⟨l.number, e⟩
    | .ok ins =>
      (layoutFrom sourceLines (l.number + 1) ls).map fun rest =>
        List.replicate (l.number - next) "" ++ ins.canonical :: rest

/-- The lines of the canonical text, or the first error. -/
def layout (p : Program) : Except LineError (List String) := layoutFrom p.sourceLines 1 p.lines

/-- The canonical text, or the first error. -/
def render (p : Program) : Except LineError String :=
  p.layout.map fun lines => String.join (lines.map (· ++ "\n"))

end MixAsm.Program
