import Redaction.Mask.Selection
import Redaction.Text.Form
import Redaction.Text.Pieces

/-!
# Query strings

A query string is cut at `&`, empty pieces are dropped, and each piece is cut at its first `=` into
a name and a value, which are decoded. A piece without `=` has the empty value. A masked query
string is written anew from the decoded entries; one in which nothing is masked is left as it is.
-/

namespace Redaction.Query

open Redaction.Text

/-- A piece as a decoded name and value. -/
def entry (piece : List Char) : String × String :=
  let (name, value) := (cut? '=' piece).getD (piece, [])
  (String.ofList (Form.decode name), String.ofList (Form.decode value))

/-- The decoded names and values of a query string. -/
def parse (raw : String) : List (String × String) :=
  ((pieces '&' raw.toList).filter (!·.isEmpty)).map entry

def render (entries : List (String × String)) : String :=
  String.ofList (List.intercalate ['&'] (entries.map fun (name, value) =>
    Form.encode name.toList ++ '=' :: Form.encode value.toList))

/-- The masked query string, or `none` if there is nothing to mask in it. -/
def mask? (names : Selection) (raw : String) : Option String :=
  let entries := parse raw
  if entries.any names.masks then some (render (entries.map names.maskEntry))
  else none

/-- The query string with its selected values masked. -/
def mask (names : Selection) (raw : String) : String := (mask? names raw).getD raw

end Redaction.Query
