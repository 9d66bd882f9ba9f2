import Redaction.Text.Blank
import Redaction.Text.Pattern.Fault

/-!
# Reading the text of a pattern

What is left of the text, the options that hold, and the steps that all readers are made of. A fault
of the form ends the reading; the first fault of the meaning is remembered, so that a fault of the
form comes before it wherever the two stand.
-/

namespace Redaction.Text.Pattern

/-- What the letters in a group of options stand for. -/
structure Options where
  eitherCase : Bool
  manyLines : Bool
  dotAll : Bool
  crlf : Bool
  unicode : Bool
  /-- Blanks and comments are passed over. -/
  spaced : Bool
  deriving DecidableEq, Repr

namespace Options

def usual : Options := ⟨false, false, false, false, true, false⟩

/-- The option that a letter stands for, switched on or off. -/
def put? (o : Options) (on : Bool) : Char → Option Options
  | 'i' => some { o with eitherCase := on }
  | 'm' => some { o with manyLines := on }
  | 's' => some { o with dotAll := on }
  | 'R' => some { o with crlf := on }
  | 'u' => some { o with unicode := on }
  | 'x' => some { o with spaced := on }
  | 'U' => some o
  | _ => none

/-- Switches options on, and behind a hyphen off. -/
def putAll (o : Options) (letters : List Char) : Options :=
  (letters.foldl (fun (o, on) c =>
    if c = '-' then (o, false) else ((o.put? on c).getD o, on)) (o, true)).1

end Options

structure Reading where
  rest : List Char
  place : Place
  options : Options
  /-- The names of groups and where they stand. -/
  names : List (List Char × Span)
  /-- The first fault of the meaning. -/
  later? : Option Fault
  /-- There is a condition on words of Unicode. -/
  unicodeWords : Bool

abbrev Reader := StateT Reading (Except Fault)

namespace Reader

def peek : Reader (Option Char) := return (← get).rest.head?

def here : Reader Place := return (← get).place

/-- What has been read since a place. -/
def since (start : Place) : Reader Span := return ⟨start, ← here⟩

/-- The place without a character. -/
def point : Reader Span := return ⟨← here, ← here⟩

/-- The next character. -/
def charSpan : Reader Span := do
  let r ← get
  return ⟨r.place, (r.rest.head?.map r.place.after).getD r.place⟩

def fail {α : Type} (kind : FaultKind) (span : Span) : Reader α := throw ⟨kind, span, none⟩

/-- Remembers a fault of the meaning, unless there is one. -/
def note (kind : FaultKind) (span : Span) : Reader Unit :=
  modify fun r => { r with later? := r.later?.or (some ⟨kind, span, none⟩) }

/-- Passes over a character. -/
def step : Reader Unit :=
  modify fun r => match r.rest with
    | [] => r
    | c :: rest => { r with rest, place := r.place.after c }

/-- The text behind blanks and comments, which go to the end of a line. -/
def behindBlanks (inComment : Bool) : List Char → Place → List Char × Place
  | [], p => ([], p)
  | c :: cs, p =>
    if inComment then behindBlanks (c != '\n') cs (p.after c)
    else if isBlank c then behindBlanks false cs (p.after c)
    else if c = '#' then behindBlanks true cs (p.after c)
    else (c :: cs, p)

/-- Passes over blanks and comments if they mean nothing. -/
def skipBlanks : Reader Unit :=
  modify fun r =>
    if r.options.spaced then
      let (rest, place) := behindBlanks false r.rest r.place
      { r with rest, place }
    else r

/-- Passes over a character and the blanks behind it. -/
def advance : Reader Unit := do
  step
  skipBlanks

/-- Passes over a character behind which the pattern must not end. -/
def advanceOr (kind : FaultKind) (start : Place) : Reader Unit := do
  advance
  if (← peek).isNone then fail kind (← since start)

/-- Passes over some characters, if they stand there. -/
def accept (cs : List Char) : Reader Bool := do
  if cs.isPrefixOf (← get).rest then
    cs.forM fun _ => step
    return true
  else return false

/-- Reads characters of a kind. -/
def spanWhile (p : Char → Bool) : Reader (List Char) := do
  let rec read : Nat → Reader (List Char)
    | 0 => return []
    | fuel + 1 => do
      match ← peek with
      | some c =>
        if p c then
          advance
          return c :: (← read fuel)
        else return []
      | none => return []
  read ((← get).rest.length + 1)

end Reader

end Redaction.Text.Pattern
