import ViewClassifier.Files.Fault
import ViewClassifier.Text.Blank

/-!
# File trees

The files and directories that a program can see, with a current directory, as a value. A path is
walked name by name from the root or from the current directory, and every place on the way has to be
a directory. There are no links, so that a place has one location and many spellings.
-/

set_option autoImplicit false

namespace ViewClassifier.Files

abbrev Bytes := List UInt8

abbrev Location := List String

inductive Node where
  | file (content : Bytes)
  | directory
  deriving DecidableEq

/-- Files and directories by location, and the current directory. The root is always there. -/
structure Tree where
  here : Location
  entries : List (Location × Node)

structure Path where
  absolute : Bool
  names : List String
  slashed : Bool
  deriving DecidableEq, Repr

namespace Path

/-- The path that a text spells. Repeated slashes count as one. -/
def ofText (text : String) : Path :=
  let chars := text.toList
  { absolute := chars.head? == some '/'
    names := ((Text.pieces '/' chars).filter (· ≠ [])).map String.ofList
    slashed := chars.getLast? == some '/' }

/-- The last name, unless it is `.` or `..`. A `.` at the end is passed over. -/
def fileName? (path : Path) : Option String :=
  match path.names.reverse.dropWhile (· == ".") with
  | [] | ".." :: _ => none
  | name :: _ => some name

/-- What follows the last point of the last name. A point at its start does not count. -/
def extension? (path : Path) : Option String :=
  match path.fileName? with
  | none => none
  | some name =>
      let (tail, rest) := name.toList.reverse.span (· != '.')
      match rest with
      | _ :: _ :: _ => some (String.ofList tail.reverse)
      | _ => none

end Path

namespace Tree

def find? (t : Tree) (location : Location) : Option Node :=
  if location = [] then some .directory else t.entries.lookup location

/-- One step of a walk from a place. The place has to be a directory, and so has the step to lead to
a place that is there. -/
def step (t : Tree) (location : Location) (name : String) : Except Fault Location :=
  match t.find? location with
  | none => .error .notFound
  | some (.file _) => .error .notDirectory
  | some .directory =>
      if name = "." then .ok location
      else if name = ".." then .ok location.dropLast
      else
        let next := location ++ [name]
        if (t.find? next).isSome then .ok next else .error .notFound

def walk (t : Tree) (names : List String) (location : Location) : Except Fault Location :=
  names.foldlM t.step location

def start (t : Tree) (path : Path) : Location :=
  if path.absolute then [] else t.here

/-- The location of the place that a text names. A slash at the end stands for the directory before
it, an empty text names nothing, and neither does a text with a NUL character. -/
def resolve (t : Tree) (text : String) : Except Fault Location :=
  let path := Path.ofText text
  if text = "" then .error .notFound
  else if '\x00' ∈ text.toList then .error .invalidName
  else t.walk (if path.slashed then path.names ++ ["."] else path.names) (t.start path)

def open? (t : Tree) (text : String) : Except Fault Node := do
  let location ← t.resolve text
  match t.find? location with
  | some node => return node
  | none => throw .notFound

def read (t : Tree) (text : String) : Except Fault Bytes := do
  match ← t.open? text with
  | .file content => return content
  | .directory => throw .isDirectory

def isFile (t : Tree) (text : String) : Bool :=
  match t.open? text with
  | .ok (.file _) => true
  | _ => false

def set (t : Tree) (location : Location) (node : Node) : Tree :=
  { t with entries := (location, node) :: t.entries.filter (·.1 ≠ location) }

/-- The tree with another node at a location below a place, and directories on the way to it. -/
def put (t : Tree) (base : Location) (names : List String) (node : Node) : Tree :=
  match names with
  | [] => t
  | [name] => t.set (base ++ [name]) node
  | name :: more => (t.set (base ++ [name]) .directory).put (base ++ [name]) more node

/-- The tree after a file is written. The directory of the file has to be there, and the name must
not be the name of a directory. -/
def write (t : Tree) (text : String) (content : Bytes) : Except Fault Tree := do
  let path := Path.ofText text
  if text = "" then throw .notFound
  if '\x00' ∈ text.toList then throw .invalidName
  let some name := path.names.getLast? | throw .isDirectory
  let directory ← t.walk path.names.dropLast (t.start path)
  match t.find? directory with
  | none => throw .notFound
  | some (.file _) => throw .notDirectory
  | some .directory =>
      let target := directory ++ [name]
      if path.slashed ∨ name = "." ∨ name = ".." ∨ t.find? target = some .directory then
        throw .isDirectory
      return t.set target (.file content)

end Tree

def Location.text (location : Location) : String :=
  "/" ++ "/".intercalate location

end ViewClassifier.Files
