/-!
# Log entries

An entry has a level, the part of the program that wrote it, and a text.
-/

namespace Redaction.Log

inductive Level
  | error
  | warn
  | info
  | debug
  | trace
  deriving DecidableEq, Repr

namespace Level

def text : Level → String
  | error => "ERROR"
  | warn => "WARN"
  | info => "INFO"
  | debug => "DEBUG"
  | trace => "TRACE"

/-- How much is written at a level, from the errors alone to everything. -/
def rank : Level → Nat
  | error => 1
  | warn => 2
  | info => 3
  | debug => 4
  | trace => 5

end Level

/-- The parts of the program that write entries. -/
inductive Source
  | config
  | scrubber
  | commands
  | scrubCommand
  deriving DecidableEq, Repr

/-- The name that a source bears in the log. -/
def Source.text : Source → String
  | config => "eventscrub_core::config"
  | scrubber => "eventscrub_core::scrubber"
  | commands => "eventscrub::commands"
  | scrubCommand => "eventscrub::commands::scrub"

structure Entry where
  level : Level
  source : Source
  text : String
  deriving DecidableEq, Repr

end Redaction.Log
