import Redaction.Rules.Notice
import Redaction.Scrubber

/-!
# Compiling rules

A rule compiles if its path is not empty, has no empty segment and does not end with the wildcard,
and if an action that masks entries says which. The path is looked at first.
-/

namespace Redaction

/-- What is wrong with the path of a rule. -/
inductive PathProblem
  | empty
  | emptySegment
  | endsWithWildcard
  deriving DecidableEq, Repr

def PathProblem.text : PathProblem → String
  | empty => "path is empty"
  | emptySegment => "path has an empty segment"
  | endsWithWildcard => "path cannot end with `[]`"

/-- Why a rule does not compile. -/
inductive CompileError
  | invalidPath (path : String) (problem : PathProblem)
  /-- The rule with this label does not say which entries it masks. -/
  | missingKeys (label : String)
  deriving DecidableEq, Repr

def CompileError.message : CompileError → String
  | invalidPath path problem => s!"Invalid key path '{path}': {problem.text}"
  | missingKeys label => s!"Rule '{label}' needs a non-empty `keys` list or `all_keys: true`"

/-- Cuts the path of a rule at its dots, or says what is wrong with it. -/
def KeyPath.parseRule (dotted : String) : Except CompileError KeyPath :=
  if dotted.isEmpty then .error (.invalidPath dotted .empty)
  else
    let path := parse dotted
    if path.segments.any (·.text.isEmpty) then .error (.invalidPath dotted .emptySegment)
    else if path.segments.getLast? = some .eachElement then
      .error (.invalidPath dotted .endsWithWildcard)
    else .ok path

namespace RuleSpec

/-- The entries that a rule masks. -/
def selection (r : RuleSpec) : Selection := if r.allKeys then .all else .only r.keys

def redactor (r : RuleSpec) : Redactor :=
  match r.action with
  | .scrub => .scrub
  | .scrubCookies => .cookies r.selection
  | .scrubQueryString => .queryString r.selection

def compile (r : RuleSpec) : Except CompileError Rule := do
  let path ← KeyPath.parseRule r.path
  if r.action.needsKeys && !r.allKeys && r.keys.isEmpty then throw (.missingKeys r.label)
  return ⟨r.name?, path, r.redactor⟩

end RuleSpec

namespace Config

/-- The scrubber of a configuration, or the error of the first rule that does not compile. -/
def compile (c : Config) : Except CompileError Scrubber := do
  return ⟨← c.rules.mapM RuleSpec.compile, c.maxTargets⟩

/-- What is logged when a configuration has been compiled. -/
def compileNotices (c : Config) : List Notice :=
  .compiled c.rules.length :: (c.maxTargets.map Notice.limiting).toList

end Config

end Redaction
