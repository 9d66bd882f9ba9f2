import Redaction.Json.Basic
import Redaction.Rules.Spec

/-!
# Rules as JSON

A rule is written as an object with all its fields. Read, a rule may lack any of them, and fields
that are not known are passed over; the fields may also come as an array in their order. A
configuration has the field `rules` and may have `settings`.
-/

namespace Redaction

open Json (null)

/-! ### Writing -/

def optionalText : Option String → Json
  | some s => .string s
  | none => .null

namespace RuleSpec

def toJson (r : RuleSpec) : Json :=
  .object [
    ("name", optionalText r.name?),
    ("description", optionalText r.description?),
    ("path", .string r.path),
    ("action", .string r.action.text),
    ("keys", .array (r.keys.map .string)),
    ("all_keys", .bool r.allKeys)]

end RuleSpec

/-- The rules of a configuration as an array. -/
def Config.rulesJson (c : Config) : Json := .array (c.rules.map RuleSpec.toJson)

/-! ### Reading -/

/-- The fields of a structure that is written as an object, or as an array in the given order. -/
def fields? (names : List String) : Json → Option Members
  | .object ms => some ms
  | .array items => if items.length ≤ names.length then some (names.zip items) else none
  | _ => none

/-- A field that may be absent; if it is there, it must have the right shape. -/
def field? {α : Type} (ms : Members) (name : String) (absent : α) (read : Json → Option α) :
    Option α :=
  match Members.get? name ms with
  | some v => read v
  | none => some absent

def readText? : Json → Option String
  | .string s => some s
  | _ => none

def readOptionalText? : Json → Option (Option String)
  | .null => some none
  | .string s => some (some s)
  | _ => none

def readTexts? : Json → Option (List String)
  | .array items => items.mapM readText?
  | _ => none

def readBool? : Json → Option Bool
  | .bool b => some b
  | _ => none

def readLimit? : Json → Option (Option Nat)
  | .null => some none
  | .number (.int n) => if 0 ≤ n then some (some n.toNat) else none
  | _ => none

/-- An action is its name, or an object with its name as the only key and nothing in it. -/
def Action.ofJson? : Json → Option Action
  | .string s => ofText? s
  | .object [(name, .null)] => ofText? name
  | _ => none

def RuleSpec.ofJson? (v : Json) : Option RuleSpec := do
  let ms ← fields? ["name", "description", "path", "action", "keys", "all_keys"] v
  return {
    name? := ← field? ms "name" none readOptionalText?
    description? := ← field? ms "description" none readOptionalText?
    path := ← field? ms "path" "" readText?
    action := ← field? ms "action" .scrub Action.ofJson?
    keys := ← field? ms "keys" [] readTexts?
    allKeys := ← field? ms "all_keys" false readBool? }

/-- The limit in the settings. -/
def readSettings? (v : Json) : Option (Option Nat) := do
  field? (← fields? ["max_targets_per_rule"] v) "max_targets_per_rule" none readLimit?

/-- The configuration that a value denotes; `none` if it has not the shape of one. -/
def Config.ofJson? (v : Json) : Option Config := do
  let ms ← fields? ["rules", "settings"] v
  let rules ← match ← Members.get? "rules" ms with
    | .array items => items.mapM RuleSpec.ofJson?
    | _ => none
  return ⟨rules, ← field? ms "settings" none readSettings?⟩

end Redaction
