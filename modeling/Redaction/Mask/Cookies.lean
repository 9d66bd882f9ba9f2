import Redaction.Mask.Selection
import Redaction.Redactor
import Redaction.Text.Blank
import Redaction.Text.Pieces

/-!
# Cookie headers

A header is cut at `;` into pieces, and each piece at its first `=` into a name and a value without
the blanks around them. A piece without `=` makes the header malformed. A masked header is written
with `; ` between its pieces; a header in which nothing is masked is left as it is.
-/

namespace Redaction.Cookies

open Redaction.Text

/-- A piece of a header as a name and a value. -/
def entry (piece : List Char) : Except RedactError (String × String) :=
  match cut? '=' piece with
  | some (name, value) => .ok (String.ofList (trim name), String.ofList (trim value))
  | none => .error (.malformedCookie (String.ofList (trim piece)))

/-- The names and values of a header, or the first malformed piece. -/
def parse (raw : String) : Except RedactError (List (String × String)) :=
  (pieces ';' raw.toList).mapM entry

def render (entries : List (String × String)) : String :=
  "; ".intercalate (entries.map fun (name, value) => s!"{name}={value}")

/-- The masked header, or `none` if there is nothing to mask in it. -/
def mask? (names : Selection) (raw : String) : Except RedactError (Option String) := do
  let entries ← parse raw
  if entries.any names.masks then return some (render (entries.map names.maskEntry))
  else return none

/-- The header with its selected values masked. -/
def mask (names : Selection) (raw : String) : Except RedactError String := do
  return (← mask? names raw).getD raw

end Redaction.Cookies
