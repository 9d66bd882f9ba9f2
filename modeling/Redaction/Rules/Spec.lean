/-!
# Rule specifications

A rule as it is written down: where it applies and what it does there. A configuration is a list of
rules and the settings of the whole pipeline.
-/

namespace Redaction

/-- What a rule does with the values it points at. -/
inductive Action
  | scrub
  | scrubCookies
  | scrubQueryString
  deriving DecidableEq, Repr, Inhabited

namespace Action

def text : Action → String
  | scrub => "scrub"
  | scrubCookies => "scrub_cookies"
  | scrubQueryString => "scrub_query_string"

def ofText? (s : String) : Option Action :=
  [scrub, scrubCookies, scrubQueryString].find? fun a => a.text = s

/-- The action masks entries, so it must be said which. -/
def needsKeys : Action → Bool
  | scrub => false
  | _ => true

theorem ofText?_text (a : Action) : ofText? a.text = some a := by cases a <;> decide

end Action

structure RuleSpec where
  name? : Option String
  description? : Option String
  path : String
  action : Action
  keys : List String
  allKeys : Bool
  deriving DecidableEq, Repr, Inhabited

/-- The name of a rule, or its path if it has none. -/
def RuleSpec.label (r : RuleSpec) : String := r.name?.getD r.path

structure Config where
  rules : List RuleSpec
  /-- How many targets one rule may touch in one event. -/
  maxTargets : Option Nat
  deriving DecidableEq, Repr, Inhabited

/-- No rules and no settings. -/
def Config.empty : Config := ⟨[], none⟩

/-- The built-in rules mask two local variables of stack frames. -/
def Config.builtin : Config where
  rules := [
    { name? := some "frame_vars_username"
      description? := some "Local `username` variables captured in stack frames"
      path := "exception.values.[].stacktrace.frames.[].vars.username"
      action := .scrub
      keys := []
      allKeys := false },
    { name? := some "frame_vars_password"
      description? := some "Local `password` variables captured in stack frames"
      path := "exception.values.[].stacktrace.frames.[].vars.password"
      action := .scrub
      keys := []
      allKeys := false }]
  maxTargets := none

end Redaction
