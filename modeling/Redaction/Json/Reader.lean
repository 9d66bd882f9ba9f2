import Redaction.Json.Token

/-!
# Reading JSON

A text is read token by token by a machine that keeps the containers it is in. Arrays and objects
may stand in one another up to 127 deep. A key that comes again keeps its first place and takes
the last value. There is one kind of failure: the text is no JSON document.
-/

namespace Redaction.Json

/-- A container that is being read, with what it holds so far. -/
inductive Open
  /-- The items, last first. -/
  | array (items : List Json)
  /-- The members, and the key whose value comes next. -/
  | object (members : Members) (key : String)
  deriving Repr

/-- What the machine has read and what may follow. -/
inductive Reading
  /-- A value follows. -/
  | value (within : List Open)
  /-- The first item of an array follows, or its end. -/
  | firstItem (within : List Open)
  /-- The first key of an object follows, or its end. -/
  | firstKey (within : List Open)
  /-- A further key follows. -/
  | key (within : List Open) (members : Members)
  /-- The colon after a key follows. -/
  | colon (within : List Open) (members : Members) (key : String)
  /-- A value has been read. -/
  | after (within : List Open) (value : Json)
  deriving Repr

namespace Reading

/-- How deep containers may stand in one another. -/
def maxDepth : Nat := 127

/-- Reads a token where a value may stand. -/
def start? (within : List Open) : Token → Option Reading
  | .openArray => if within.length < maxDepth then some (firstItem within) else none
  | .openObject => if within.length < maxDepth then some (firstKey within) else none
  | .string s => some (after within (.string s))
  | .scalar v => some (after within v)
  | _ => none

/-- Reads one token. -/
def step? : Reading → Token → Option Reading
  | value within, t => start? within t
  | firstItem within, .closeArray => some (after within (.array []))
  | firstItem within, t => start? (.array [] :: within) t
  | firstKey within, .closeObject => some (after within (.object []))
  | firstKey within, .string k => some (colon within [] k)
  | key within ms, .string k => some (colon within ms k)
  | colon within ms k, .colon => some (value (.object ms k :: within))
  | after (.array vs :: within) v, .comma => some (value (.array (v :: vs) :: within))
  | after (.array vs :: within) v, .closeArray => some (after within (.array (v :: vs).reverse))
  | after (.object ms k :: within) v, .comma => some (key within (ms.put k v))
  | after (.object ms k :: within) v, .closeObject => some (after within (.object (ms.put k v)))
  | _, _ => none

/-- Reads the rest of a text. -/
def run? (r : Reading) (cs : List Char) : Option Json :=
  match cs with
  | [] =>
    match r with
    | after [] v => some v
    | _ => none
  | c :: cs =>
    if Token.isSpace c then run? r cs
    else match _h : Token.next? (c :: cs) with
      | some (t, rest) =>
        match r.step? t with
        | some r => run? r rest
        | none => none
      | none => none
termination_by cs.length
decreasing_by
  · exact Nat.lt_succ_self _
  · exact Token.next?_length _h

end Reading

/-- The value that a text denotes; `none` if it is no JSON document. -/
def parse? (text : String) : Option Json := (Reading.value []).run? text.toList

end Redaction.Json
