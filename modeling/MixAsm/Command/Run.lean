import MixAsm.Command.Directory
import MixAsm.Config.Json
import MixAsm.ParseError

namespace MixAsm.Command

/-!
# Runs of a command

What a command sees, what it answers, and what the answer leaves behind. A command writes at most
one file, and as its last act.

* `Failure` — why a command fails, with the sentence that reports it;
* `Response` — what a command prints, and how it ends;
* `Response.settle` — the exit code, the text of both streams and the directory afterwards;
* `Finished.misused` — the same for a command line that makes up no command.
-/

/-! ### Input -/

/-- What a command can read. -/
structure Surroundings where
  file? : String → Option ByteArray
  stdin : ByteArray

/-- What a command in a directory can read. -/
def Directory.surroundings (d : Directory) (stdin : ByteArray) : Surroundings := ⟨d.read?, stdin⟩

/-- Why a command fails. -/
inductive Failure
  | unreadable (name : String)
  /-- A file does not hold a configuration; `verb` is what the command says of it. -/
  | badConfig (verb path : String)
  | badLine (e : LineError)
  | invalidLines (count : Nat) (name : String)
  | notCanonical (name : String)
  | rejectedLines (count total : Nat)
  | unwritable (e : WriteError)
  deriving DecidableEq, Repr

/-- The sentence that reports a failure. -/
def Failure.message : Failure → String
  | unreadable name => s!"reading {name}"
  | badConfig verb path => s!"{verb} {path}"
  | badLine e => e.message
  | invalidLines n name => s!"{n} invalid line(s) in {name}"
  | notCanonical name => s!"{name} is not in canonical form"
  | rejectedLines n total => s!"{n} of {total} lines failed to parse"
  | unwritable e => e.message

/-- The text of a file. -/
def Surroundings.text (see : Surroundings) (path : String) : Except Failure String :=
  match (see.file? path).bind String.fromUTF8? with
  | some text => .ok text
  | none => .error (.unreadable path)

/-- The configuration in a file, or the strict one if there is none. Options can only add to what
    it lets pass. -/
def Surroundings.config (see : Surroundings) (verb : String) (path? : Option String)
    (caseInsensitive collapseSpaces : Bool) : Except Failure Config := do
  let cfg ← match path? with
    | none => pure {}
    | some path =>
      match Config.read? (← see.text path) with
      | some cfg => pure cfg
      | none => throw (.badConfig verb path)
  return { cfg with
    caseInsensitive := cfg.caseInsensitive || caseInsensitive
    collapseSpaces := cfg.collapseSpaces || collapseSpaces }

/-- The path that stands for the standard input. -/
def stdinPath : String := "-"

/-- What a report calls the file of a path. -/
def displayName (path : String) : String := if path = stdinPath then "<stdin>" else path

/-- The text that a path names, which may be the standard input. -/
def Surroundings.source (see : Surroundings) (path : String) : Except Failure String :=
  if path = stdinPath then
    match String.fromUTF8? see.stdin with
    | some text => .ok text
    | none => .error (.unreadable "stdin")
  else see.text path

/-! ### Output -/

/-- How a command ends. -/
inductive Outcome
  | success
  | failure (why : Failure)
  /-- The command succeeds if the file can be written. -/
  | save (path text : String)
  deriving DecidableEq, Repr

/-- What a command prints, and how it ends. -/
structure Response where
  stdout : String
  stderr : String
  outcome : Outcome
  deriving DecidableEq, Repr

namespace Response

/-- Print a text. -/
def print (text : String) : Response := ⟨text, "", .success⟩

/-- Fail without printing anything. -/
def fail (why : Failure) : Response := ⟨"", "", .failure why⟩

/-- Write a text to a file, or print it if none is named. -/
def emit (out : Option String) (text : String) : Response :=
  match out with
  | some path => ⟨"", "", .save path text⟩
  | none => print text

/-- The response of a command whose input can fail to be read. -/
def ofExcept : Except Failure Response → Response
  | .ok r => r
  | .error why => fail why

end Response

/-- What a finished command leaves behind. -/
structure Finished where
  exitCode : UInt32
  stdout : String
  stderr : String
  directory : Directory

/-- The line that reports a failure. What is told below that line of an unreadable file or a bad
    configuration, the causes behind the failure, is left out. -/
def Failure.report (why : Failure) : String := s!"Error: {why.message}\n"

/-- What a response leaves behind in a directory. -/
def Response.settle (r : Response) (d : Directory) : Finished :=
  match r.outcome with
  | .success => ⟨0, r.stdout, r.stderr, d⟩
  | .failure why => ⟨1, r.stdout, r.stderr ++ why.report, d⟩
  | .save path text =>
    match d.write path text.toUTF8 with
    | .ok d => ⟨0, r.stdout, r.stderr, d⟩
    | .error e => ⟨1, r.stdout, r.stderr ++ (Failure.unwritable e).report, d⟩

/-- What a command line leaves behind that makes up no command: the line that shows its usage, in
    place of all that is said of the misuse. -/
def Finished.misused (usage : String) (d : Directory) : Finished := ⟨2, "", usage, d⟩

end MixAsm.Command
