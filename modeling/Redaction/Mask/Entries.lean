import Redaction.Mask.Cookies
import Redaction.Mask.Query

/-!
# The built-in redactors

`scrub` masks any value. The redactors of cookies and of query strings mask selected entries of a
string, of an object, or of an array of pairs, and keep the shape of the value.
-/

namespace Redaction

def maskValue : Json := .string maskText

namespace Entries

/-- The members of an object with the selected values masked. -/
def maskMembers (names : Selection) (ms : Members) : Members :=
  ms.map fun (name, v) => (name, if names.selects name then maskValue else v)

/-- The value is a string that the selection has. -/
def selectsValue (names : Selection) : Json → Bool
  | .string s => names.selects s
  | _ => false

/-- The element at `index` masked: a non-empty array is a name and what belongs to it. An element
that is no such pair has no name; that is an error if every entry is to be masked. -/
def maskElement (names : Selection) (index : Nat) (item : Json) : Except RedactError Json :=
  match names, item with
  | .all, .array (name :: _) => .ok (.array [name, maskValue])
  | .all, _ => .error (.malformedPair index)
  | .only _, .array (name :: _) =>
    if selectsValue names name then .ok (.array [name, maskValue]) else .ok item
  | .only _, _ => .ok item

/-- The elements of an array masked, from `index` on. -/
def maskElements (names : Selection) (index : Nat) : List Json → Except RedactError (List Json)
  | [] => .ok []
  | item :: items => do
    let item ← maskElement names index item
    return item :: (← maskElements names (index + 1) items)

/-- The value with its selected entries masked, a string by `maskString`. -/
def mask (names : Selection) (maskString : String → Except RedactError String) (value : Json) :
    Except RedactError Json :=
  if value.isFalsy then .ok value
  else match value with
    | .object ms => .ok (.object (maskMembers names ms))
    | .array items => return .array (← maskElements names 0 items)
    | .string s => return .string (← maskString s)
    | v => .error (.unsupportedShape v.typeName)

end Entries

namespace Redactor

/-- Masks any value. -/
def scrub : Redactor := named "scrub" fun _ => .ok maskValue

/-- Masks cookies. -/
def cookies (names : Selection) : Redactor :=
  named "scrub_cookies" (Entries.mask names (Cookies.mask names))

/-- Masks the entries of query strings. -/
def queryString (names : Selection) : Redactor :=
  named "scrub_query_string" (Entries.mask names fun s => .ok (Query.mask names s))

end Redactor

end Redaction
