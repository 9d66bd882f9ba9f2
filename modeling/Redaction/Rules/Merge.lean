import Redaction.Rules.Notice

/-!
# Merging and disabling

The rules of a user come after the ones they are merged with, and the user's limit wins if it is
set. Disabling names drops the rules with these names; a rule without a name is never dropped.
-/

namespace Redaction

namespace RuleSpec

/-- The rule bears one of the names. -/
def isNamed (r : RuleSpec) (names : List String) : Bool :=
  match r.name? with
  | some name => names.contains name
  | none => false

end RuleSpec

namespace Config

/-- The rules of `base`, then the user's. -/
def merge (base : Config) : Option Config → Config
  | none => base
  | some user => ⟨base.rules ++ user.rules, user.maxTargets <|> base.maxTargets⟩

def mergeNotices (base : Config) (user : Option Config) : List Notice :=
  let added := match user with
    | none => []
    | some user => .appending user.rules.length :: (user.maxTargets.map Notice.overriding).toList
  .merging base.rules.length :: added ++ [.merged (base.merge user).rules.length]

/-- The configuration without the rules that bear one of the names. -/
def disable (c : Config) (names : List String) : Config :=
  { c with rules := c.rules.filter fun r => !r.isNamed names }

/-- The names that no rule bears, each once. -/
def unknownNames (c : Config) (names : List String) : List String :=
  (names.filter fun name => !c.rules.any (·.name? = some name)).eraseDups

def disableNotices (c : Config) (names : List String) : List Notice :=
  (c.unknownNames names).map Notice.unknownName ++
    [.active (c.disable names).rules.length c.rules.length]

end Config

end Redaction
