import Redaction.Cli.Help
import Redaction.Cli.Run

/-!
# The program

The host of the program is the operating system.
-/

namespace Redaction.Cli

def describeFailure : IO.Error → FileError
  | .noFileOrDirectory .. => .notFound
  | .permissionDenied .. => .permissionDenied
  | .inappropriateType _ 20 _ => .notDirectory
  | .inappropriateType .. => .isDirectory
  | .invalidArgument _ 36 _ => .nameTooLong
  | e => .other (toString e)

/-- Does something that may fail because of a file. -/
def attempt {α : Type} (act : IO α) : IO (Except FileError α) := do
  try return .ok (← act)
  catch e => return .error (describeFailure e)

/-- Reads up to the end of an input. -/
partial def readAll (input : IO.FS.Stream) (done : ByteArray) : IO ByteArray := do
  let bytes ← input.read 65536
  if bytes.isEmpty then return done else readAll input (done ++ bytes)

/-- The bytes of a file. -/
def readFile (path : String) : IO (Except FileError ByteArray) :=
  attempt do (← IO.FS.Handle.mk path .read).readBinToEnd

def systemHost : Host IO where
  isFile path := do
    match ← readFile path with
    | .ok _ | .error .permissionDenied => return true
    | .error _ => return false
  readFile path := do return (← readFile path).map ByteArray.toList
  readInput := do return (← readAll (← IO.getStdin) .empty).toList
  writeFile path text := attempt (IO.FS.writeFile path text)
  putOutput text := do
    let out ← IO.getStdout
    out.putStr text
    out.flush
  putError text := do (← IO.getStderr).putStr text

/-- The user's directory of settings. -/
def configDirectory? : IO (Option String) := do
  match ← IO.getEnv "XDG_CONFIG_HOME" with
  | some d => if d.startsWith "/" then return some d
  | none => pure ()
  return (← IO.getEnv "HOME").map (· ++ "/.config")

end Redaction.Cli

open Redaction.Cli in
def main (args : List String) : IO UInt32 := do
  let configFile? ← IO.getEnv "EVENTSCRUB_CONFIG"
  match CommandLine.parse args configFile? with
  | .ok line =>
    let environment : Environment := {
      configFile?
      logSpec? := ← IO.getEnv "RUST_LOG"
      configDirectory? := ← configDirectory?
      colours := ← (← IO.getStderr).isTty }
    run systemHost environment line
  | .error e =>
    if e.exitCode = 0 then systemHost.putOutput e.text else systemHost.putError e.text
    return e.exitCode
