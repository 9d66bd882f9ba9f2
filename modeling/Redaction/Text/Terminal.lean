import Redaction.Text.Ranges
import Redaction.Text.Utf8

/-!
# Terminal control

What a terminal shows of a text: neither control sequences nor other control characters, apart from
tabs, form feeds and the ends of lines. A sequence starts with the escape character and is followed
by a small machine up to its end; one that is not ended hides the rest of the text.
-/

namespace Redaction.Text.Terminal

/-- Where in a control sequence a terminal is. -/
inductive State
  | outside
  | escape
  | escapeIntermediate
  /-- Behind the opening bracket of a sequence with parameters. -/
  | sequence
  | parameters
  | intermediate
  | malformed
  /-- In a command to the operating system, such as the title of the window. -/
  | command
  /-- Behind the start of a sequence for the device, which has data behind its parameters. -/
  | device
  | deviceParameters
  | deviceIntermediate
  | deviceData
  | deviceMalformed
  /-- In a string for nobody. -/
  | message
  deriving DecidableEq, Repr

/-- A tab or a form feed, or a part of the end of a line. -/
def isLayout (c : Char) : Bool := c = '\t' || c = '\n' || c = '\x0c' || c = '\r'

/-- A character that is shown outside of control sequences. -/
def isShown (c : Char) : Bool := (0x20 ≤ c.toNat && c.toNat != 0x7F) || isLayout c

namespace State

/-- The character is shown in this state. Short sequences let through the layout of the text. -/
def shows : State → Char → Bool
  | outside, c => isShown c
  | escape, c | escapeIntermediate, c | sequence, c | parameters, c | intermediate, c
  | malformed, c => isLayout c
  | _, _ => false

/-- The state behind the first character of a sequence, after the escape. -/
def afterEscape (n : Nat) : State :=
  if n == 0x5B then sequence
  else if n == 0x5D then command
  else if n == 0x50 then device
  else if n == 0x58 || n == 0x5E || n == 0x5F then message
  else if 0x20 ≤ n && n ≤ 0x2F then escapeIntermediate
  else if 0x30 ≤ n && n ≤ 0x7E then outside
  else escape

/-- The state behind a character of a sequence: its kind is that of parameters, of what stands
between them and the end, or of the end itself. -/
def advance (n : Nat) (digit mark between last stay : State) : State :=
  if 0x30 ≤ n && n ≤ 0x3B then digit
  else if 0x3C ≤ n && n ≤ 0x3F then mark
  else if 0x20 ≤ n && n ≤ 0x2F then between
  else if 0x40 ≤ n && n ≤ 0x7E then last
  else stay

/-- The byte 0x9C ends a string also as a part of a longer character. -/
def endsString (c : Char) : Bool := 0x7F < c.toNat && (Utf8.encode [c]).contains 0x9C

/-- The state behind a character that is not shown. -/
def next (s : State) (c : Char) : State :=
  let n := c.toNat
  if n == 0x1B then escape
  else if n == 0x18 || n == 0x1A then outside
  else match s with
  | outside => outside
  | escape => afterEscape n
  | escapeIntermediate => if 0x30 ≤ n && n ≤ 0x7E then outside else escapeIntermediate
  | sequence => advance n parameters parameters intermediate outside sequence
  | parameters => advance n parameters malformed intermediate outside parameters
  | intermediate => advance n malformed malformed intermediate outside intermediate
  | malformed => advance n malformed malformed malformed outside malformed
  | command => if n == 0x07 then outside else command
  | device => advance n deviceParameters deviceParameters deviceIntermediate deviceData device
  | deviceParameters =>
    advance n deviceParameters deviceMalformed deviceIntermediate deviceData deviceParameters
  | deviceIntermediate =>
    advance n deviceMalformed deviceMalformed deviceIntermediate deviceData deviceIntermediate
  | deviceData | deviceMalformed | message => if endsString c then outside else s

end State

/-- As long as characters are shown, the state only waits for the next one that is not. -/
def isVisible (s : State) (showing : Bool) (c : Char) : Bool :=
  if showing then isShown c else s.shows c

/-- What is shown of a text, given the state and whether the character before was shown. -/
def shownFrom (s : State) (showing : Bool) : List Char → List Char
  | [] => []
  | c :: cs =>
    if isVisible s showing c then c :: shownFrom (if 0x7F < c.toNat then .outside else s) true cs
    else shownFrom (s.next c) false cs

/-- What a terminal shows of a text. -/
def shown (cs : List Char) : List Char := shownFrom .outside true cs

end Redaction.Text.Terminal
