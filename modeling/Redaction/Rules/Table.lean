import Redaction.Rules.Spec
import Redaction.Table

/-!
# Rules as a table

One row for each rule, in the order in which the rules are applied.
-/

namespace Redaction

/-- The entries that a rule masks, in words. -/
def RuleSpec.keysText (r : RuleSpec) : String :=
  if !r.action.needsKeys then "-"
  else if r.allKeys then "(all)"
  else ", ".intercalate r.keys

/-- The cells of the rule with a number. -/
def RuleSpec.cells (number : Nat) (r : RuleSpec) : List String :=
  [toString number, r.name?.getD "-", r.path, r.action.text, r.keysText]

def Config.table (c : Config) : Table where
  header := ["#", "Name", "Path", "Action", "Keys"]
  rows := c.rules.mapIdx fun i r => r.cells (i + 1)

end Redaction
