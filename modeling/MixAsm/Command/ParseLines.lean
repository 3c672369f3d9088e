import MixAsm.Command.Arguments
import MixAsm.Command.Run
import MixAsm.Instruction.Json
import MixAsm.Instruction.Parser
import MixAsm.Json.Writer
import MixAsm.Text.Pad

namespace MixAsm.Command

/-!
# The line parser

A command over lines that are given as its arguments: each is printed in canonical form or as
JSON, or reported.

* `ParseLines.ofWords?` — the command that the words of a command line make up;
* `ParseLines.run` — what the command answers;
* `ParseLines.execute` — what a command line leaves behind in a directory.
-/

/-- A command to the line parser. -/
structure ParseLines where
  config : Option String
  caseInsensitive : Bool
  json : Bool
  lines : List String
  deriving DecidableEq, Repr

namespace ParseLines

/-- The options of the line parser. -/
def arity (name : String) : Option Arity :=
  if name = "--config" then some .one
  else if name = "--case-insensitive" ∨ name = "--json" then some .flag
  else none

/-- The command that the words of a command line make up. At least one line is needed.

    To ask for help or for the version (`--help`, `-h`, `--version`, `-V`) makes up no command here,
    and ends as any misuse does: what such a command line prints is left out, and so is that it
    succeeds. -/
def ofWords? (words : List String) : Option ParseLines := do
  let items ← sortWords arity .nothing words
  let config ← Item.single? "--config" items
  let caseInsensitive ← Item.given? "--case-insensitive" items
  let json ← Item.given? "--json" items
  match Item.words items with
  | [] => none
  | lines => return { config, caseInsensitive, json, lines }

/-- The line that shows an instruction. -/
def shown (json : Bool) (ins : Instruction) : String :=
  if json then ins.toJson.compact ++ "\n"
  else s!"{Text.padRight 24 ins.canonical} ; {ins.category.name}\n"

/-- The line that reports a rejected argument. -/
def reported (line : String) (e : ParseError) : String :=
  s!"{Text.quoteText line}: error: {e.message}\n"

/-- The instructions of the lines that are accepted, in order. -/
def accepted (cfg : Config) (lines : List String) : List Instruction :=
  lines.filterMap fun line => (Instruction.parse cfg line).toOption

/-- The lines that are rejected, each with its error, in order. -/
def rejected (cfg : Config) (lines : List String) : List (String × ParseError) :=
  lines.filterMap fun line =>
    match Instruction.parse cfg line with
    | .ok _ => none
    | .error e => some (line, e)

/-- Show the lines that are accepted and report the others. -/
def respond (cfg : Config) (json : Bool) (lines : List String) : Response :=
  let bad := rejected cfg lines
  { stdout := String.join ((accepted cfg lines).map (shown json))
    stderr := String.join (bad.map fun (line, e) => reported line e)
    outcome := if bad.length = 0 then .success
      else .failure (.rejectedLines bad.length lines.length) }

/-- What the command answers to what it sees. -/
def run (c : ParseLines) (see : Surroundings) : Response :=
  .ofExcept do
    let cfg ← see.config "parsing" c.config c.caseInsensitive false
    return respond cfg c.json c.lines

/-- The line that shows how the command is used. -/
def usage : String := "usage: parse [OPTIONS] LINE...\n"

/-- What a command line leaves behind in a directory. -/
def execute (words : List String) (d : Directory) (stdin : ByteArray) : Finished :=
  match ofWords? words with
  | some c => (c.run (d.surroundings stdin)).settle d
  | none => .misused usage d

end ParseLines

end MixAsm.Command
