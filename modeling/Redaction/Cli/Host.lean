import Redaction.Cli.Files
import Redaction.Text.Utf8

/-!
# Hosts

What the program does outside itself goes through a host. `Machine.host` is one that only changes a
value: its files, its two outputs.
-/

namespace Redaction.Cli

structure Host (m : Type → Type) where
  /-- There is a file, and no directory, at the path. -/
  isFile : String → m Bool
  readFile : String → m (Except FileError (List UInt8))
  /-- The whole of the standard input. -/
  readInput : m (List UInt8)
  /-- Makes a file with this text, in the place of the one that is there. -/
  writeFile : String → String → m (Except FileError Unit)
  putOutput : String → m Unit
  putError : String → m Unit

/-- The text that bytes encode. -/
def decodeText (bytes : List UInt8) : Except FileError String :=
  match Text.Utf8.decode? bytes with
  | some cs => .ok (String.ofList cs)
  | none => .error .notText

/-- Files, an input and what has been written so far. -/
structure Machine where
  files : Files
  input : List UInt8
  output : String
  errors : String
  deriving DecidableEq, Repr

namespace Machine

def writeFile (machine : Machine) (path : String) (text : String) :
    Except FileError Unit × Machine :=
  match machine.files.write path (Text.Utf8.encode text.toList) with
  | .ok files => (.ok (), { machine with files })
  | .error e => (.error e, machine)

/-- The host that is a machine. -/
def host : Host (StateM Machine) where
  isFile path := fun machine => (machine.files.isFile path, machine)
  readFile path := fun machine => (machine.files.read path, machine)
  readInput := fun machine => (machine.input, machine)
  writeFile path text := fun machine => machine.writeFile path text
  putOutput text := fun machine => ((), { machine with output := machine.output ++ text })
  putError text := fun machine => ((), { machine with errors := machine.errors ++ text })

end Machine

end Redaction.Cli
