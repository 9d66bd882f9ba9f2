import Redaction.Path.Basic
import Redaction.Redactor
import Redaction.Log

/-!
# Failure telemetry

A scrubber reports no failure to its caller. It counts failures and writes a record for each, and
ends every rule with one record.
-/

namespace Redaction

/-- Why the walk of a rule was given up. -/
inductive TraversalError
  | targetLimitExceeded (limit : Nat)
  | panicked (message : String)
  deriving DecidableEq, Repr

def TraversalError.message : TraversalError → String
  | targetLimitExceeded limit => s!"rule touched more than {limit} containers"
  | panicked message => s!"walk panicked: {message}"

/-- Numbers of failures. -/
structure Failures where
  redactorErrors : Nat
  traversalErrors : Nat
  deriving DecidableEq, Repr, Inhabited

namespace Failures

def zero : Failures := ⟨0, 0⟩

def total (f : Failures) : Nat := f.redactorErrors + f.traversalErrors

/-- The failures counted after `earlier`, none where `earlier` has more. -/
def since (f earlier : Failures) : Failures :=
  ⟨f.redactorErrors - earlier.redactorErrors, f.traversalErrors - earlier.traversalErrors⟩

end Failures

/-- A record of the pipeline. -/
inductive Record
  /-- A redactor failed on one target. -/
  | redactorFailed (redactor : String) (path : KeyPath) (error : RedactError)
  /-- A rule is done. -/
  | touched (path : KeyPath) (count : Nat)
  /-- A rule was given up. -/
  | walkFailed (path : KeyPath) (error : TraversalError)
  deriving DecidableEq, Repr

namespace Record

/-- Every failure record starts with this word. -/
def marker : String := "SCRUBBER_ERROR"

def text : Record → String
  | redactorFailed redactor path error =>
    s!"{marker}: Error in redactor '{redactor}' at '{path.display}': {error.message} " ++
      "(metric: redactor_error)"
  | touched path count => s!"Rule '{path.display}' touched {count} container(s)."
  | walkFailed path error =>
    s!"{marker}: Error walking '{path.display}': {error.message} (metric: traversal_error)"

def level : Record → Log.Level
  | touched _ _ => .debug
  | _ => .error

def toEntry (r : Record) : Log.Entry := ⟨r.level, .scrubber, r.text⟩

end Record

/-- The counters and the records written so far. -/
structure Telemetry where
  failures : Failures
  records : Array Record
  deriving Repr, Inhabited

namespace Telemetry

def empty : Telemetry := ⟨.zero, #[]⟩

def redactorFailed (t : Telemetry) (redactor : String) (path : KeyPath) (error : RedactError) :
    Telemetry :=
  ⟨{ t.failures with redactorErrors := t.failures.redactorErrors + 1 },
    t.records.push (.redactorFailed redactor path error)⟩

def walkFailed (t : Telemetry) (path : KeyPath) (error : TraversalError) : Telemetry :=
  ⟨{ t.failures with traversalErrors := t.failures.traversalErrors + 1 },
    t.records.push (.walkFailed path error)⟩

def touched (t : Telemetry) (path : KeyPath) (count : Nat) : Telemetry :=
  ⟨t.failures, t.records.push (.touched path count)⟩

end Telemetry

end Redaction
