/-!
# Messages to the user

A message is a line with a label, which may be coloured.
-/

namespace Redaction

inductive Tone
  | info
  | warning
  | error
  deriving DecidableEq, Repr

namespace Tone

def label : Tone → String
  | info => "info:"
  | warning => "warning:"
  | error => "error:"

/-- The number of the colour of a label on a terminal: cyan, yellow, red. -/
def colour : Tone → Nat
  | info => 36
  | warning => 33
  | error => 31

end Tone

/-- Switches a property of the text on a terminal. -/
def terminalCode (n : Nat) : String := s!"\x1b[{n}m"

/-- The label, bold and coloured if asked for. -/
def Tone.styled (tone : Tone) (colours : Bool) : String :=
  if colours then
    terminalCode 1 ++ terminalCode tone.colour ++ tone.label ++ terminalCode 39 ++ terminalCode 0
  else tone.label

/-- A message as a line. -/
def Tone.line (tone : Tone) (text : String) (colours : Bool) : String :=
  s!"{tone.styled colours} {text}\n"

end Redaction
