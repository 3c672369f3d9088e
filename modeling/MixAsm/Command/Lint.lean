import MixAsm.Command.Arguments
import MixAsm.Command.Run
import MixAsm.Json.Writer
import MixAsm.Report

namespace MixAsm.Command

/-!
# The linter

A command over whole files: it checks a file, brings it into canonical form, dumps every line of
it for machines, or lists the table of opcodes.

* `Lint.ofWords?` — the command that the words of a command line make up;
* `Lint.run` — what the command answers;
* `Lint.execute` — what a command line leaves behind in a directory.
-/

/-- The form of an answer. -/
inductive OutputFormat
  | text | json
  deriving DecidableEq, Repr

/-- What the linter is to do. -/
inductive LintAction
  | check (file : String) (format : OutputFormat)
  | format (file : String) (out : Option String) (check : Bool)
  | dump (file : String) (out : Option String)
  | mnemonics (categories : List Category) (format : OutputFormat)
  deriving DecidableEq, Repr

/-- A command to the linter. -/
structure Lint where
  config : Option String
  caseInsensitive : Bool
  collapseSpaces : Bool
  action : LintAction
  deriving DecidableEq, Repr

namespace Lint

/-! ### Command lines -/

/-- The options that may stand before and behind the name of the action. -/
def commonArity (name : String) : Option Arity :=
  if name = "--config" then some .one
  else if name = "--case-insensitive" ∨ name = "--collapse-spaces" then some .flag
  else none

/-- The options of each action. An action that is not listed here does not exist. -/
def actionArity (action : String) : Option (String → Option Arity) :=
  let among (table : List (String × Arity)) (name : String) : Option Arity :=
    (table.lookup name).or (commonArity name)
  if action = "check" then some (among [("--format", .one)])
  else if action = "fmt" then some (among [("--out", .one), ("--check", .flag)])
  else if action = "dump" then some (among [("--out", .one)])
  else if action = "mnemonics" then some (among [("--category", .many), ("--format", .one)])
  else none

/-- The one plain word of an action on a file. A path has at least one character. -/
def onlyFile? (items : List Item) : Option String :=
  match Item.words items with
  | [path] => if path = "" then none else some path
  | _ => none

/-- The path that an option gives, if it is given. -/
def path? (name : String) (items : List Item) : Option (Option String) :=
  (Item.single? name items).bind fun value => if value = some "" then none else some value

/-- The form of the answer that is asked for: text, unless another is given. -/
def format? (items : List Item) : Option OutputFormat :=
  (Item.single? "--format" items).bind fun
    | none => some .text
    | some value =>
      if value = "text" then some .text else if value = "json" then some .json else none

/-- The categories that are asked for. -/
def categories? (items : List Item) : Option (List Category) :=
  (Item.values "--category" items).mapM fun value => Category.all.find? (·.name = value)

/-- The action that a name and the items behind it make up. -/
def action? (name : String) (items : List Item) : Option LintAction :=
  if name = "check" then do
    return .check (← onlyFile? items) (← format? items)
  else if name = "fmt" then do
    return .format (← onlyFile? items) (← path? "--out" items) (← Item.given? "--check" items)
  else if name = "dump" then do
    return .dump (← onlyFile? items) (← path? "--out" items)
  else if name = "mnemonics" ∧ Item.words items = [] then do
    return .mnemonics (← categories? items) (← format? items)
  else none

/-- The command that the words of a command line make up. An option may be given once before the
    action and once behind it; of two configurations the later one holds.

    To ask for help or for the version (`help`, `--help`, `-h`, `--version`, `-V`) makes up no
    command here, and ends as any misuse does: what such a command line prints is left out, and so
    is that it succeeds. -/
def ofWords? (words : List String) : Option Lint := do
  let (before, name, rest) ← splitAtWord commonArity .nothing words
  let items ← sortWords (← actionArity name) .nothing rest
  let action ← action? name items
  let outerConfig ← path? "--config" before
  let config ← path? "--config" items
  let outerCase ← Item.given? "--case-insensitive" before
  let innerCase ← Item.given? "--case-insensitive" items
  let outerSpaces ← Item.given? "--collapse-spaces" before
  let innerSpaces ← Item.given? "--collapse-spaces" items
  return {
    config := config.or outerConfig
    caseInsensitive := outerCase || innerCase
    collapseSpaces := outerSpaces || innerSpaces
    action }

/-! ### Actions -/

/-- Check the program that a text writes. -/
def check (cfg : Config) (name text : String) (format : OutputFormat) : Response :=
  let report := (Program.parse cfg text).check name
  let count := report.diagnostics.length
  let outcome := if count = 0 then .success else .failure (.invalidLines count name)
  match format with
  | .json => ⟨report.toJson.pretty ++ "\n", "", outcome⟩
  | .text =>
    let s := report.summary
    ⟨s!"{name}: {s.lines} lines, {s.instructions} ok, {s.errors} errors\n",
      String.join (report.diagnostics.map Diagnostic.render), outcome⟩

/-- Bring a text into canonical form, or only see whether it is. -/
def format (cfg : Config) (name text : String) (out : Option String) (check : Bool) : Response :=
  match Formatted.ofSource cfg text with
  | .error e => .fail (.badLine e)
  | .ok formatted =>
    if !check then .emit out formatted.text
    else if formatted.changed then .fail (.notCanonical name)
    else .print ""

/-- Dump every line that is read of a text. -/
def dump (cfg : Config) (name text : String) (out : Option String) : Response :=
  .emit out ((Entry.listToJson ((Program.parse cfg text).dump name)).pretty ++ "\n")

/-- List the opcodes of some categories, or of all if none is named. -/
def mnemonics (categories : List Category) (format : OutputFormat) : Response :=
  let set := if categories = [] then CategorySet.full else CategorySet.ofList categories
  match format with
  | .json => .print ((Mnemonic.tableToJson set).pretty ++ "\n")
  | .text =>
    .print (String.join ((Mnemonic.listing set).map fun m =>
      s!"{Text.padRight 6 m.name} {m.category.name}\n"))

/-- The path that the command reads its text from, if it reads one. -/
def source? (c : Lint) : Option String :=
  match c.action with
  | .check file _ | .format file .. | .dump file _ => some file
  | .mnemonics .. => none

/-- What the command answers to what it sees. The configuration is read first. -/
def run (c : Lint) (see : Surroundings) : Response :=
  .ofExcept do
    let cfg ← see.config "invalid config" c.config c.caseInsensitive c.collapseSpaces
    match c.action with
    | .check file form => return check cfg (displayName file) (← see.source file) form
    | .format file out only => return format cfg (displayName file) (← see.source file) out only
    | .dump file out => return dump cfg (displayName file) (← see.source file) out
    | .mnemonics categories form => return mnemonics categories form

/-- The line that shows how the command is used. -/
def usage : String := "usage: lint [OPTIONS] check FILE | fmt FILE | dump FILE | mnemonics\n"

/-- What a command line leaves behind in a directory. -/
def execute (words : List String) (d : Directory) (stdin : ByteArray) : Finished :=
  match ofWords? words with
  | some c => (c.run (d.surroundings stdin)).settle d
  | none => .misused usage d

end Lint

end MixAsm.Command
