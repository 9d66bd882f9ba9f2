import Redaction.Rules.Compile

/-!
# Validation

Validation reports every problem of a configuration: rule by rule first the one with its name, then
the error with which it does not compile, and at the end a limit of zero.
-/

namespace Redaction

inductive Problem
  /-- The rule at this path has an empty name. -/
  | emptyName (path : String)
  /-- An earlier rule has this name. -/
  | duplicateName (name : String)
  | compile (error : CompileError)
  | zeroLimit
  deriving DecidableEq, Repr

def Problem.message : Problem → String
  | emptyName path => s!"Rule at '{path}' has an empty `name` field."
  | duplicateName name => s!"Duplicate rule name found: '{name}'."
  | compile error => error.message
  | zeroLimit => "`settings.max_targets_per_rule` must be greater than 0."

namespace RuleSpec

/-- The problem with the name of a rule that comes after rules with the names `seen`. -/
def nameProblem? (seen : List String) (r : RuleSpec) : Option Problem :=
  match r.name? with
  | none => none
  | some name =>
    if name.isEmpty then some (.emptyName r.path)
    else if seen.contains name then some (.duplicateName name)
    else none

def compileProblem? (r : RuleSpec) : Option Problem :=
  match r.compile with
  | .ok _ => none
  | .error e => some (.compile e)

/-- The rule lists keys although its action masks whole values. -/
def ignoresKeys (r : RuleSpec) : Bool := !r.action.needsKeys && (r.allKeys || !r.keys.isEmpty)

end RuleSpec

namespace Config

/-- The problems of rules that come after rules with the names `seen`. -/
def ruleProblems (seen : List String) : List RuleSpec → List Problem
  | [] => []
  | r :: rs =>
    (r.nameProblem? seen).toList ++ r.compileProblem?.toList ++
      ruleProblems (r.name?.toList ++ seen) rs

/-- All problems of a configuration. -/
def problems (c : Config) : List Problem :=
  ruleProblems [] c.rules ++ if c.maxTargets = some 0 then [.zeroLimit] else []

/-- The configuration, if it has no problem. -/
def validate (c : Config) : Except (List Problem) Config :=
  match c.problems with
  | [] => .ok c
  | problems => .error problems

/-- What is logged when a configuration is validated, with problems or without. -/
def validationNotices (c : Config) : List Notice :=
  (c.rules.filter (·.ignoresKeys)).map fun r => .ignoredKeys r.label

end Config

end Redaction
