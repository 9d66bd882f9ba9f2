import Redaction.Rules.Validation
import Redaction.Rules.Yaml

/-!
# Loading a configuration

A configuration in YAML is read and then validated.
-/

namespace Redaction

inductive LoadError
  | yaml (problem : Yaml.Problem)
  | validation (problems : List Problem)
  deriving DecidableEq, Repr

def LoadError.message : LoadError → String
  | yaml problem => s!"Failed to parse rule configuration: {problem.message}"
  | validation problems =>
    "Rule validation failed:\n" ++ "\n".intercalate (problems.map Problem.message)

namespace Config

/-- Reads and validates a configuration. What validation logs comes with either outcome. -/
def load (text : String) : Except LoadError Config × List Notice :=
  match ofYaml text with
  | .error problem => (.error (.yaml problem), [])
  | .ok c => (c.validate.mapError .validation, c.validationNotices)

end Config

end Redaction
