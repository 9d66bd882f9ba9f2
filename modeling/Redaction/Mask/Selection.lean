/-!
# Selected entries

The entries of a cookie header or a query string are names and values. Those with a selected name
are masked, unless the value is empty.
-/

namespace Redaction

/-- The text that takes the place of a masked value. -/
def maskText : String := "[Scrubbed]"

/-- Which entries of a cookie or query value are masked. -/
inductive Selection
  | all
  | only (names : List String)
  deriving DecidableEq, Repr

namespace Selection

/-- The selection has the name. -/
def selects : Selection → String → Bool
  | all, _ => true
  | only names, name => names.contains name

/-- The entry is masked: its name is selected and its value is not empty. -/
def masks (names : Selection) (entry : String × String) : Bool :=
  names.selects entry.1 && !entry.2.isEmpty

/-- The entry with its value masked, if it is to be. -/
def maskEntry (names : Selection) (entry : String × String) : String × String :=
  if names.masks entry then (entry.1, maskText) else entry

end Selection

end Redaction
