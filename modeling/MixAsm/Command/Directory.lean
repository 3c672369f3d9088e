namespace MixAsm.Command

/-!
# Directories

The files that a command can read and write, each in its place below the directory that the
command runs in.

* `Path.ofString` — the names that a path is made of;
* `Directory.locate` — the place of the file that a path names;
* `Directory.read?` — the contents of that file;
* `Directory.write` — the directory with the file created or replaced, or why it cannot be.

Only what lies below the directory is described, and that by its files. A path that leads out of the
directory, as one from the root does, is therefore taken for that of a file that is not there and
cannot be written, whatever lies in that place. And a folder that holds no file, not even further
down, is taken for one that is not there.
-/

/-- Where a file or a folder lies: the names of the folders down to it, and its own. -/
abbrev Location := List String

/-- Why a file cannot be written. -/
inductive WriteError
  | notFound
  | notDirectory
  | isDirectory
  deriving DecidableEq, Repr

/-- The sentence that reports why a file cannot be written. -/
def WriteError.message : WriteError → String
  | notFound => "No such file or directory (os error 2)"
  | notDirectory => "Not a directory (os error 20)"
  | isDirectory => "Is a directory (os error 21)"

/-- The names between the slashes of a path. -/
def segments (path : String) : List String :=
  ((path.toList.splitOn '/').filter (· ≠ [])).map String.ofList

/-- A path, cut into its names. -/
structure Path where
  /-- The folder that the path starts from, where no place is one outside the directory. -/
  start : Option Location
  /-- The names of the folders on the way. -/
  way : List String
  /-- The name of the file, if the path can name one. -/
  file? : Option String
  deriving DecidableEq, Repr

/-- The path that a text writes. One that ends in a slash, or in a dot or two, names a folder. One
    that begins with a slash starts from the root, which is outside the directory. -/
def Path.ofString (text : String) : Path where
  start := if text.toList.head? = some '/' then none else some []
  way := (segments text).dropLast
  file? := (segments text).getLast?.filter fun name =>
    name ≠ "." && name ≠ ".." && text.toList.getLast? ≠ some '/'

/-- The files of a directory, with their contents. Folders are not kept: they are told by the files
    below them. -/
structure Directory where
  files : List (Location × ByteArray)

namespace Directory

/-- The contents of the file at a place. -/
def contents? (d : Directory) (place : Location) : Option ByteArray := d.files.lookup place

/-- Does a file lie below the place? The directory itself is a folder even if it is empty. -/
def isFolder (d : Directory) (place : Location) : Bool :=
  place = [] || d.files.any fun (p, _) => place.isPrefixOf p && p ≠ place

/-! ### Paths -/

/-- The folder that a name leads to from a folder. From outside the directory no name leads back
    into it. -/
def step (d : Directory) (here : Option Location) (name : String) :
    Except WriteError (Option Location) :=
  if name = "." then .ok here
  else if name = ".." then
    .ok (here.bind fun place => if place = [] then none else some place.dropLast)
  else
    match here with
    | none => .error .notFound
    | some place =>
      if d.isFolder (place ++ [name]) then .ok (some (place ++ [name]))
      else if (d.contents? (place ++ [name])).isSome then .error .notDirectory
      else .error .notFound

/-- The folder that a list of names leads to, one after the other. -/
def walk (d : Directory) : Option Location → List String → Except WriteError (Option Location)
  | here, [] => .ok here
  | here, name :: names =>
    match d.step here name with
    | .ok next => walk d next names
    | .error e => .error e

/-- The place of the file that a path names. The file need not be there yet, but its folder has
    to be. A file outside the directory is not found, although there may be one. -/
def locate (d : Directory) (path : String) : Except WriteError Location :=
  let path := Path.ofString path
  match d.walk path.start path.way, path.file? with
  | .error e, _ => .error e
  | .ok _, none => .error .isDirectory
  | .ok none, some _ => .error .notFound
  | .ok (some place), some name =>
    if d.isFolder (place ++ [name]) then .error .isDirectory else .ok (place ++ [name])

/-! ### Reading and writing -/

/-- The contents of the file that a path names. -/
def read? (d : Directory) (path : String) : Option ByteArray :=
  match d.locate path with
  | .ok place => d.contents? place
  | .error _ => none

/-- The directory with one file created or replaced. -/
def put (d : Directory) (place : Location) (contents : ByteArray) : Directory :=
  ⟨(place, contents) :: d.files.filter (·.1 ≠ place)⟩

/-- The directory with the file that a path names created or replaced. -/
def write (d : Directory) (path : String) (contents : ByteArray) : Except WriteError Directory :=
  (d.locate path).map fun place => d.put place contents

end Directory

end MixAsm.Command
