import MixAsm.Command.Lint
import MixAsm.Command.ParseLines

/-!
# Command line

The first word chooses the program, `lint` or `parse`; the others are its command line. Files and
streams are touched here only: what a command may read is read before it runs, and what it answers
is carried out after it.
-/

namespace MixAsm.Command

/-- The contents of a file, if it can be read. -/
def readFile? (path : String) : IO (Option ByteArray) := do
  try
    return some (← IO.FS.readBinFile path)
  catch _ =>
    return none

/-- What a command sees that reads the configuration and the text at the given paths. -/
def lookAround (config source : Option String) : IO Surroundings := do
  let paths := config.toList ++ source.toList
  let files ← paths.mapM fun path => return (path, ← readFile? path)
  let stdin ←
    if source = some stdinPath then (← IO.getStdin).readBinToEnd else pure ByteArray.empty
  return ⟨fun path => (files.lookup path).join, stdin⟩

/-- Write a file, or tell why it cannot be written. -/
def writeFile (path text : String) : IO (Option WriteError) := do
  try
    IO.FS.writeFile path text
    return none
  catch
    | .noFileOrDirectory .. => return some .notFound
    | .inappropriateType .. => return some .isDirectory
    | _ => return some .notDirectory

/-- Print what a command answers and do what it asks for. -/
def perform (r : Response) : IO UInt32 := do
  IO.print r.stdout
  IO.eprint r.stderr
  match r.outcome with
  | .success => return 0
  | .failure why =>
    IO.eprint why.report
    return 1
  | .save path text =>
    match ← writeFile path text with
    | none => return 0
    | some e =>
      IO.eprint (Failure.unwritable e).report
      return 1

/-- Show how a command is used. -/
def refuse (usage : String) : IO UInt32 := do
  IO.eprint usage
  return 2

end MixAsm.Command

open MixAsm.Command in
/-- Run the program that the first word names. -/
def main (words : List String) : IO UInt32 := do
  match words with
  | "lint" :: rest =>
    match Lint.ofWords? rest with
    | some c => perform (c.run (← lookAround c.config c.source?))
    | none => refuse Lint.usage
  | "parse" :: rest =>
    match ParseLines.ofWords? rest with
    | some c => perform (c.run (← lookAround c.config none))
    | none => refuse ParseLines.usage
  | _ => refuse (Lint.usage ++ ParseLines.usage)
