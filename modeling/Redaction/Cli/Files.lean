import Redaction.Text.Pieces

/-!
# Files

A snapshot of files and directories by their place, the list of names from the root. A path is
followed name by name; `..` goes up, and an empty name stays where it is. Names and paths have a
greatest length in bytes.
-/

namespace Redaction.Cli

/-- Why a file cannot be read or written. -/
inductive FileError
  | notFound
  | permissionDenied
  | notDirectory
  | isDirectory
  | nameTooLong
  /-- The content is no UTF-8. -/
  | notText
  | other (text : String)
  deriving DecidableEq, Repr

def FileError.message : FileError → String
  | notFound => "No such file or directory (os error 2)"
  | permissionDenied => "Permission denied (os error 13)"
  | notDirectory => "Not a directory (os error 20)"
  | isDirectory => "Is a directory (os error 21)"
  | nameTooLong => "File name too long (os error 36)"
  | notText => "stream did not contain valid UTF-8"
  | other text => text

/-- The names that lead to a place from the root. -/
abbrev Location := List String

inductive Node
  | directory
  | file (content : List UInt8)
  deriving DecidableEq, Repr

structure Files where
  /-- The directory from which relative paths start. -/
  home : Location
  nodes : List (Location × Node)
  deriving DecidableEq, Repr

namespace Files

def node? (f : Files) (l : Location) : Option Node :=
  if l.isEmpty then some .directory else f.nodes.lookup l

/-- The files with this node in a place. -/
def put (f : Files) (l : Location) (n : Node) : Files :=
  { f with nodes := (l, n) :: f.nodes.filter (·.1 ≠ l) }

/-- The greatest length of a name. -/
def maxName : Nat := 255

/-- The greatest length of a path. -/
def maxPath : Nat := 4095

/-- Goes on by one name from a directory, whether or not there is something of that name. -/
def enter (l : Location) (name : String) : Except FileError Location :=
  if name.isEmpty || name = "." then .ok l
  else if name = ".." then .ok l.dropLast
  else if maxName < name.utf8ByteSize then .error .nameTooLong
  else .ok (l ++ [name])

/-- Follows names from a place. All places but the last one have to be directories. -/
def walk (f : Files) (l : Location) : List String → Except FileError Location
  | [] => .ok l
  | name :: names =>
    match f.node? l with
    | some .directory => do walk f (← enter l name) names
    | some (.file _) => .error .notDirectory
    | none => .error .notFound

/-- The place from which a path starts. -/
def origin (f : Files) (path : String) : Location := if path.startsWith "/" then [] else f.home

/-- The names of a path. -/
def names (path : String) : List String := (Text.pieces '/' path.toList).map String.ofList

def find (f : Files) (path : String) : Except FileError Location :=
  if maxPath < path.utf8ByteSize then .error .nameTooLong
  else f.walk (f.origin path) (names path)

def isFile (f : Files) (path : String) : Bool :=
  match f.find path with
  | .ok l =>
    match f.node? l with
    | some (.file _) => true
    | _ => false
  | .error _ => false

def read (f : Files) (path : String) : Except FileError (List UInt8) := do
  match f.node? (← f.find path) with
  | some (.file content) => return content
  | some .directory => throw .isDirectory
  | none => throw .notFound

/-- The place of a file that is to be made. Its directory must be there, and a path that ends like
that of a directory names no file. -/
def target (f : Files) (path : String) : Except FileError Location := do
  if maxPath < path.utf8ByteSize then throw .nameTooLong
  let names := (names path).filter (!·.isEmpty)
  let parent ← f.walk (f.origin path) names.dropLast
  match f.node? parent with
  | some .directory =>
    if path.endsWith "/" then throw .isDirectory
    f.walk parent names.getLast?.toList
  | some (.file _) => throw .notDirectory
  | none => throw .notFound

/-- The files with this content in a path. -/
def write (f : Files) (path : String) (content : List UInt8) : Except FileError Files := do
  let l ← f.target path
  match f.node? l with
  | some .directory => throw .isDirectory
  | _ => return f.put l (.file content)

/-- The files with a directory in a path and in all places on the way. -/
def makeDirectory (f : Files) (path : String) : Files :=
  let names := names path
  let places := (List.range (names.length + 1)).map fun n =>
    f.origin path ++ (names.take n).filter (!·.isEmpty)
  places.foldl (fun f l => if (f.node? l).isNone then f.put l .directory else f) f

end Files

end Redaction.Cli
