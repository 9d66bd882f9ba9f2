import Redaction.Text.Hex
import Redaction.Text.Pattern.Basic
import Redaction.Text.Pattern.Reading

/-!
# Escapes in patterns

A backslash takes its meaning from a sign and gives one to a letter: a character by its number, a
class of characters, or a condition on a place.
-/

namespace Redaction.Text.Pattern.Reader

/-- What a character or an escape stands for. -/
inductive Piece
  /-- A character; `byte` says that it is written as a byte. -/
  | char (c : Char) (byte : Bool)
  | any
  | lineStart
  | lineEnd
  | textStart
  | textEnd
  /-- A condition on words. -/
  | words (a : Assertion)
  /-- A class of Unicode that has a letter, and the part of it in ASCII. -/
  | short (ascii : CharSet) (negated : Bool)
  /-- A property of Unicode, and whether only its name can be unknown. -/
  | property (kind : FaultKind)

/-- A number in base 16 as a character. -/
def charOfHex? (digits : List Char) : Option Char :=
  let n := digits.foldl (fun n d => n * 16 + (hexValue? d).getD 0) 0
  if h : n.isValidChar then some (Char.ofNatAux n h) else none

def isHexDigit (c : Char) : Bool := (hexValue? c).isSome

/-- Reads so many digits. -/
def hexDigits : Nat → Reader (List Char)
  | 0 => return []
  | n + 1 => do
    match ← peek with
    | none => fail .escapeUnfinished (← point)
    | some c =>
      if !isHexDigit c then fail .hexDigit (← charSpan)
      advance
      return c :: (← hexDigits n)

/-- Reads a character by its number, behind the letter that gives the count of digits. -/
def hexChar (start : Place) (letter : Char) : Reader (Piece × Span) := do
  advance
  if (← peek).isNone then fail .escapeUnfinished (← point)
  let brace ← here
  if (← peek) = some '\x7b' then
    let first := (← charSpan).stop
    advance
    let digits ← spanWhile isHexDigit
    match ← peek with
    | none => fail .escapeUnfinished (← since brace)
    | some '\x7d' =>
      let number ← since first
      advance
      if digits.isEmpty then fail .hexEmpty (← since brace)
      match charOfHex? digits with
      | some c => return (.char c false, ← since start)
      | none => fail .hexValue number
    | some _ => fail .hexDigit (← charSpan)
  else
    let digits ← hexDigits (if letter = 'x' then 2 else if letter = 'u' then 4 else 8)
    match charOfHex? digits with
    | some c => return (.char c (letter = 'x'), ← since start)
    | none => fail .hexValue (← since brace)

/-- The name of a property without case, blanks, hyphens, underscores and `is` before it. -/
def plainName (name : List Char) : String :=
  let lower := name.map Char.toLower
  let rest := if ['i', 's'].isPrefixOf lower then lower.drop 2 else lower
  let letters := rest.filter fun c => c != ' ' && c != '_' && c != '-' && c.toNat < 0x80
  if rest.length < lower.length && letters = ['c'] then "isc" else String.ofList letters

/-- Three names are taken for categories at once, all others for properties. -/
def propertyFault (name : List Char) : FaultKind :=
  if !name.any (fun c => c = ':' || c = '=') && ["cf", "sc", "lc"].contains (plainName name) then
    .propertyValue
  else .property

/-- Reads a property of Unicode by one letter or by a name in braces. -/
def property (start : Place) : Reader (Piece × Span) := do
  advance
  match ← peek with
  | none => fail .escapeUnfinished (← point)
  | some '\x7b' =>
    advance
    let name ← spanWhile (· != '\x7d')
    if (← peek).isNone then fail .escapeUnfinished (← point)
    step
    return (.property (propertyFault name), ← since start)
  | some '\\' => fail .propertyName (← charSpan)
  | some _ =>
    advance
    return (.property .property, ← since start)

/-- The conditions on words that have a name. -/
def wordAssertion? : String → Option Assertion
  | "start" => some .wordStart
  | "end" => some .wordEnd
  | "start-half" => some .wordStartHalf
  | "end-half" => some .wordEndHalf
  | _ => none

/-- Reads a condition on words behind `\b`. A brace that does not start with a name belongs to a
repetition. -/
def boundary (start : Place) : Reader (Piece × Span) := do
  let isNameChar (c : Char) : Bool := c.isAlpha || c = '-'
  if (← peek) ≠ some '\x7b' then return (.words .wordBoundary, ← since start)
  let before ← get
  advanceOr .wordUnfinished start
  let first ← here
  if !((← peek).any isNameChar) then
    set before
    return (.words .wordBoundary, ← since start)
  let name ← spanWhile isNameChar
  if (← peek) ≠ some '\x7d' then fail .wordUnclosed (← since before.place)
  let span ← since first
  step
  match wordAssertion? (String.ofList name) with
  | some a => return (.words a, ← since start)
  | none => fail .wordUnknown span

/-- An ASCII character that may stand behind a backslash without need. -/
def isEscapable (c : Char) : Bool :=
  c.toNat < 0x80 && !c.isAlphanum && c != '<' && c != '>'

/-- What a letter behind a backslash stands for. -/
def letterEscape? (c : Char) : Option Piece :=
  match c with
  | 'a' => some (.char '\x07' false)
  | 'f' => some (.char '\x0c' false)
  | 't' => some (.char '\t' false)
  | 'n' => some (.char '\n' false)
  | 'r' => some (.char '\r' false)
  | 'v' => some (.char '\x0b' false)
  | 'A' => some .textStart
  | 'z' => some .textEnd
  | 'B' => some (.words .noWordBoundary)
  | '<' => some (.words .wordStart)
  | '>' => some (.words .wordEnd)
  | 'd' => some (.short CharSet.digit false)
  | 's' => some (.short CharSet.space false)
  | 'w' => some (.short CharSet.word false)
  | 'D' => some (.short CharSet.digit true)
  | 'S' => some (.short CharSet.space true)
  | 'W' => some (.short CharSet.word true)
  | _ => if isEscapable c then some (.char c false) else none

/-- Reads an escape from its backslash on. -/
def escape : Reader (Piece × Span) := do
  let start ← here
  step
  match ← peek with
  | none => fail .escapeUnfinished (← since start)
  | some c =>
    if c.isDigit then fail .backReference ⟨start, (← charSpan).stop⟩
    else if c = 'x' || c = 'u' || c = 'U' then hexChar start c
    else if c = 'p' || c = 'P' then property start
    else
      step
      if c = 'b' then boundary start
      else match letterEscape? c with
        | some piece => return (piece, ← since start)
        | none => fail .escapeUnknown (← since start)

end Redaction.Text.Pattern.Reader
