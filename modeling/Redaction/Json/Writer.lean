import Redaction.Json.NumberText

/-!
# Writing JSON

`compact` uses no white space. `pretty` puts every item and member on a line of its own, indented
by two spaces for each container around it; an empty array or object stays on one line.
-/

namespace Redaction.Json

/-- A character as it stands in a string: quotes, backslashes and control characters below U+0020
are escaped. -/
def escapeChar (c : Char) : List Char :=
  if c = '"' then ['\\', '"']
  else if c = '\\' then ['\\', '\\']
  else if 0x20 ≤ c.toNat then [c]
  else if c = '\x08' then ['\\', 'b']
  else if c = '\x0c' then ['\\', 'f']
  else if c = '\n' then ['\\', 'n']
  else if c = '\r' then ['\\', 'r']
  else if c = '\t' then ['\\', 't']
  else ['\\', 'u', '0', '0', Nat.digitChar (c.toNat / 16), Nat.digitChar (c.toNat % 16)]

/-- A string between quotes. -/
def stringText (s : String) : List Char := '"' :: s.toList.flatMap escapeChar ++ ['"']

def boolText (b : Bool) : List Char := if b then "true".toList else "false".toList

/-! ### Without white space -/

mutual

/-- The text of a value without white space. -/
def compactText : Json → List Char
  | null => "null".toList
  | bool b => boolText b
  | number n => n.text
  | string s => stringText s
  | array items => '[' :: compactItems items ++ [']']
  | object members => '\x7b' :: compactMembers members ++ ['\x7d']

def compactItems : List Json → List Char
  | [] => []
  | [v] => compactText v
  | v :: vs => compactText v ++ ',' :: compactItems vs

def compactMembers : List (String × Json) → List Char
  | [] => []
  | [(k, v)] => stringText k ++ ':' :: compactText v
  | (k, v) :: ms => stringText k ++ ':' :: compactText v ++ ',' :: compactMembers ms

end

/-- The value as a text without white space. -/
def compact (v : Json) : String := String.ofList (compactText v)

/-! ### Indented -/

/-- A new line within `depth` containers. -/
def newLine (depth : Nat) : List Char := '\n' :: List.replicate (2 * depth) ' '

mutual

/-- The indented text of a value within `depth` containers. -/
def prettyText (depth : Nat) : Json → List Char
  | null => "null".toList
  | bool b => boolText b
  | number n => n.text
  | string s => stringText s
  | array [] => ['[', ']']
  | array (v :: vs) => '[' :: prettyItems (depth + 1) (v :: vs) ++ newLine depth ++ [']']
  | object [] => ['\x7b', '\x7d']
  | object (m :: ms) => '\x7b' :: prettyMembers (depth + 1) (m :: ms) ++ newLine depth ++ ['\x7d']

def prettyItems (depth : Nat) : List Json → List Char
  | [] => []
  | [v] => newLine depth ++ prettyText depth v
  | v :: vs => newLine depth ++ prettyText depth v ++ ',' :: prettyItems depth vs

def prettyMembers (depth : Nat) : List (String × Json) → List Char
  | [] => []
  | [(k, v)] => newLine depth ++ stringText k ++ ':' :: ' ' :: prettyText depth v
  | (k, v) :: ms =>
    newLine depth ++ stringText k ++ ':' :: ' ' :: prettyText depth v ++
      ',' :: prettyMembers depth ms

end

/-- The value as an indented text. -/
def pretty (v : Json) : String := String.ofList (prettyText 0 v)

end Redaction.Json
