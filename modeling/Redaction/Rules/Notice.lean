import Redaction.Log
import Redaction.Rules.Spec

/-!
# Notices

What is logged while a configuration is read, merged, narrowed and compiled.
-/

namespace Redaction

inductive Notice
  /-- A rule that masks whole values lists keys. -/
  | ignoredKeys (label : String)
  /-- A name that is to be disabled is no rule's name. -/
  | unknownName (name : String)
  | loadingBuiltin
  | loadedBuiltin (count : Nat)
  | loading (file : String)
  | loaded (count : Nat) (file : String)
  | merging (count : Nat)
  | appending (count : Nat)
  | overriding (limit : Nat)
  | merged (count : Nat)
  | active (count before : Nat)
  | compiled (count : Nat)
  | limiting (limit : Nat)
  deriving DecidableEq, Repr

namespace Notice

def level : Notice → Log.Level
  | ignoredKeys _ | unknownName _ => .warn
  | loading _ | loaded _ _ => .info
  | _ => .debug

def text : Notice → String
  | ignoredKeys label =>
    s!"Rule '{label}': `keys`/`all_keys` are ignored for action '{Action.scrub.text}'."
  | unknownName name => s!"Rule '{name}' in `disable` list does not exist."
  | loadingBuiltin => "Loading default scrub rules from embedded string..."
  | loadedBuiltin count => s!"Loaded {count} default scrub rules."
  | loading file => s!"Loading scrub rules from: {file}"
  | loaded count file => s!"Loaded {count} rules from file {file}."
  | merging count => s!"merge_rules called. Default rules count: {count}"
  | appending count => s!"User config provided. Appending {count} user rules."
  | overriding limit => s!"Overriding max_targets_per_rule with user value: {limit}"
  | merged count => s!"Final total rules after merge: {count}"
  | active count before => s!"Active rules after filtering: {count} (was {before})."
  | compiled count => s!"Compiled {count} scrub rules."
  | limiting limit => s!"Limiting each rule to {limit} targets."

def toEntry (n : Notice) : Log.Entry := ⟨n.level, .config, n.text⟩

end Notice

end Redaction
