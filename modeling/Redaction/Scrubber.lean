import Redaction.Mask.Entries
import Redaction.Path.Visit
import Redaction.Telemetry

/-!
# Scrubbing

A scrubber applies its rules to an event one after another. Scrubbing does not fail: a redactor
that fails leaves a marker in the place of the value, and a rule whose walk is given up leaves the
rest of its targets as they are. Both are counted and recorded, and the next rule runs.
-/

namespace Redaction

/-- What takes the place of a value whose redactor failed. -/
def errorMarker : Json := .string "ERROR WHEN SCRUBBING"

/-- A path and the redactor of the values it points at. -/
structure Rule where
  name? : Option String
  path : KeyPath
  redactor : Redactor

namespace Rule

/-- The rule in words, for inspection. -/
def describe (r : Rule) : Except Panic String := do
  let redactor ← r.redactor.name
  let name := match r.name? with
    | some n => s!"Some({Text.quoted n})"
    | none => "None"
  return "Rule \x7b name: " ++ name ++ ", path: " ++ Text.quoted r.path.display ++
    ", redactor: " ++ Text.quoted redactor ++ " \x7d"

end Rule

structure Scrubber where
  rules : List Rule
  /-- How many targets one rule may touch in one event. -/
  maxTargets : Option Nat

namespace Scrubber

/-- What a rule keeps while it runs: the number of targets touched, and the telemetry. -/
abbrev Progress := Nat × Telemetry

/-- Redacts the value under `key` in one target. The limit is checked first. If the redactor fails
and its name cannot be asked for, the failure cannot be recorded and the walk is given up. -/
def redactTarget (limit : Option Nat) (rule : Rule) (key : String) :
    Visitor Progress TraversalError := fun ms (touched, telemetry) =>
  if limit = some touched then ⟨ms, (touched, telemetry), some (.targetLimitExceeded touched)⟩
  else match Members.get? key ms with
    | none => ⟨ms, (touched + 1, telemetry), none⟩
    | some v =>
      match rule.redactor.answer v with
      | .ok w => ⟨Members.set key w ms, (touched + 1, telemetry), none⟩
      | .error e =>
        match rule.redactor.name with
        | .ok name =>
          ⟨Members.set key errorMarker ms,
            (touched + 1, telemetry.redactorFailed name rule.path e), none⟩
        | .error p => ⟨ms, (touched + 1, telemetry), some (.panicked p.message)⟩

/-- Applies one rule to an event. -/
def applyRule (limit : Option Nat) (rule : Rule) (event : Json) (telemetry : Telemetry) :
    Json × Telemetry :=
  let key := rule.path.finalKey?.getD ""
  let r := event.visitTargets rule.path (redactTarget limit rule key) (0, telemetry)
  let (touched, telemetry) := r.state
  match r.error with
  | none => (r.value, telemetry.touched rule.path touched)
  | some e => (r.value, telemetry.walkFailed rule.path e)

/-- Applies every rule in order. -/
def scrub (s : Scrubber) (event : Json) (telemetry : Telemetry) : Json × Telemetry :=
  s.rules.foldl (fun (event, telemetry) rule => applyRule s.maxTargets rule event telemetry)
    (event, telemetry)

/-- The hook that runs before an event is sent: it never drops the event. -/
def beforeSend {η : Type} (s : Scrubber) (event : Json) (_hint : η) (telemetry : Telemetry) :
    Option Json × Telemetry :=
  let (event, telemetry) := s.scrub event telemetry
  (some event, telemetry)

/-- The paths of the local variables of stack frames that hold names and passwords. -/
def defaultPaths : List String := [
  "exception.values.[].stacktrace.frames.[].vars.username",
  "exception.values.[].stacktrace.frames.[].vars.password"]

/-- Masks the default paths, without a limit. -/
def default : Scrubber :=
  ⟨defaultPaths.map fun p => ⟨none, KeyPath.parse p, .scrub⟩, none⟩

end Scrubber

end Redaction
