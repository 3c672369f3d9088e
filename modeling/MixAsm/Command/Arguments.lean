namespace MixAsm.Command

/-!
# Command lines

The words of a command line, sorted into flags, options with a value, and plain words. An option
is a word that starts with a dash and is more than the dash. Its value follows it, behind an equals
sign in the same word or as the next word, which must then not be an option. Behind the word `--`
every word is plain.

* `sortWords` — the items that the words of a command line make up;
* `Item.single?`, `Item.given?` — an option or a flag that may be given once;
* `splitAtWord` — the options before the first plain word, and the words from there on.
-/

/-- What may follow the name of an option. -/
inductive Arity
  /-- Nothing. -/
  | flag
  /-- One value. -/
  | one
  /-- One value, or as many as there are words behind the name that are no options. -/
  | many
  deriving DecidableEq, Repr

/-- A part of a command line. -/
inductive Item
  | flag (name : String)
  | option (name value : String)
  | word (text : String)
  deriving DecidableEq, Repr

/-- Does the word start with a dash and go on? -/
def isOption (word : List Char) : Bool := word.head? = some '-' && word ≠ ['-']

/-- The name of an option, and the value behind an equals sign, if there is one. -/
def splitOption (word : List Char) : String × Option String :=
  let name := word.takeWhile (· ≠ '=')
  (String.ofList name, (word.dropWhile (· ≠ '=')).tail?.map String.ofList)

/-- What the words read so far leave open. -/
inductive Awaiting
  | nothing
  /-- The option just named still lacks its value. -/
  | value (name : String) (many : Bool)
  /-- The option just given may take further values. -/
  | more (name : String)
  deriving DecidableEq, Repr

/-- What is left open once an option has a value. -/
def Awaiting.afterValue (name : String) (many : Bool) : Awaiting :=
  if many then more name else nothing

/-- What an option is by itself, and what it leaves open. -/
def readOption (arity : String → Option Arity) (word : List Char) :
    Option (List Item × Awaiting) :=
  let (name, value?) := splitOption word
  match arity name, value? with
  | some .flag, none => some ([.flag name], .nothing)
  | some .one, none => some ([], .value name false)
  | some .many, none => some ([], .value name true)
  | some .one, some v | some .many, some v => some ([.option name v], .nothing)
  | _, _ => none

/-- The items of a command line, where `arity` tells the options that there are. An option that
    there is not, or without the value it needs, makes no command line. -/
def sortWords (arity : String → Option Arity) : Awaiting → List String → Option (List Item)
  | .value .., [] => none
  | _, [] => some []
  | awaiting, word :: rest =>
    if isOption word.toList then
      match awaiting with
      | .value .. => none
      | _ =>
        if word = "--" then some (rest.map .word)
        else
          match readOption arity word.toList with
          | some (items, next) => (sortWords arity next rest).map (items ++ ·)
          | none => none
    else
      match awaiting with
      | .nothing => (sortWords arity .nothing rest).map (.word word :: ·)
      | .value name many =>
        (sortWords arity (.afterValue name many) rest).map (.option name word :: ·)
      | .more name => (sortWords arity (.more name) rest).map (.option name word :: ·)

/-- The items before the first plain word of a command line, that word, and the words behind it. -/
def splitAtWord (arity : String → Option Arity) :
    Awaiting → List String → Option (List Item × String × List String)
  | _, [] => none
  | awaiting, word :: rest =>
    if isOption word.toList then
      match awaiting with
      | .value .. => none
      | _ =>
        match readOption arity word.toList with
        | some (items, next) =>
          (splitAtWord arity next rest).map fun (is, w, rest) => (items ++ is, w, rest)
        | none => none
    else
      match awaiting with
      | .nothing => some ([], word, rest)
      | .value name many =>
        (splitAtWord arity (.afterValue name many) rest).map fun (is, w, rest) =>
          (.option name word :: is, w, rest)
      | .more name =>
        (splitAtWord arity (.more name) rest).map fun (is, w, rest) =>
          (.option name word :: is, w, rest)

namespace Item

/-- The values given for an option, in order. -/
def values (name : String) (items : List Item) : List String :=
  items.filterMap fun
    | option n v => if n = name then some v else none
    | _ => none

/-- The plain words, in order. -/
def words (items : List Item) : List String :=
  items.filterMap fun
    | word w => some w
    | _ => none

/-- The value of an option that may be given once, if it is given. -/
def single? (name : String) (items : List Item) : Option (Option String) :=
  match values name items with
  | [] => some none
  | [v] => some (some v)
  | _ => none

/-- Is a flag that may be given once given? -/
def given? (name : String) (items : List Item) : Option Bool :=
  match items.count (flag name) with
  | 0 => some false
  | 1 => some true
  | _ => none

end Item

end MixAsm.Command
