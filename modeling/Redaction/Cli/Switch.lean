/-!
# Switches of the command line

The program has two commands; each level of the command line has switches of its own. A switch has
a long name and may have a short one. What follows it is nothing, a file, or names between commas.
-/

namespace Redaction.Cli

inductive Switch
  | quiet
  | debug
  | inputFile
  | output
  | pretty
  | failOnError
  | config
  | noDefaults
  | disable
  | json
  | help
  | version
  deriving DecidableEq, Repr

/-- What follows a switch. -/
inductive Operand
  | nothing
  | file
  | names
  deriving DecidableEq, Repr

namespace Switch

def long : Switch → String
  | quiet => "quiet"
  | debug => "debug"
  | inputFile => "input-file"
  | output => "output"
  | pretty => "pretty"
  | failOnError => "fail-on-error"
  | config => "config"
  | noDefaults => "no-defaults"
  | disable => "disable"
  | json => "json"
  | help => "help"
  | version => "version"

def short? : Switch → Option Char
  | quiet => some 'q'
  | debug => some 'd'
  | inputFile => some 'i'
  | output => some 'o'
  | pretty => some 'p'
  | disable => some 'x'
  | help => some 'h'
  | version => some 'V'
  | _ => none

def operand : Switch → Operand
  | inputFile | output | config => .file
  | disable => .names
  | _ => .nothing

/-- What a switch is for. -/
def purpose : Switch → String
  | quiet => "Suppress all informational and debug messages."
  | debug => "Enable debug logging."
  | inputFile => "Read the event from a file instead of stdin."
  | output => "Write output to a file instead of stdout."
  | pretty => "Pretty-print the scrubbed event."
  | failOnError => "Exit with code 2 if any redactor or traversal failure occurred."
  | config => "Path to a YAML scrub rule file."
  | noDefaults => "Do not load the built-in rules."
  | disable => "Disable these rule names (comma-separated)."
  | json => "Print the active rules as JSON."
  | help => "Print help"
  | version => "Print version"

end Switch

/-- What stands first without being a switch. -/
inductive Verb
  | scrub
  | rules
  | help
  deriving DecidableEq, Repr

namespace Verb

def text : Verb → String
  | scrub => "scrub"
  | rules => "rules"
  | help => "help"

def purpose : Verb → String
  | scrub => "Scrubs a JSON event read from a file or stdin."
  | rules => "Lists the active scrub rules, in evaluation order."
  | help => "Print this message or the help of the given subcommand(s)"

end Verb

/-- The part of a command line in which a switch stands. -/
inductive Level
  | program
  | scrub
  | rules
  deriving DecidableEq, Repr

namespace Level

def switches : Level → List Switch
  | program => [.quiet, .debug, .help, .version]
  | scrub => [.inputFile, .output, .pretty, .failOnError, .config, .noDefaults, .disable,
      .quiet, .debug, .help]
  | rules => [.json, .config, .noDefaults, .disable, .quiet, .debug, .help]

def verbs : Level → List Verb
  | program => [.scrub, .rules, .help]
  | _ => []

def long? (level : Level) (name : String) : Option Switch :=
  level.switches.find? fun s => s.long = name

def short? (level : Level) (c : Char) : Option Switch :=
  level.switches.find? fun s => s.short? = some c

def verb? (level : Level) (s : String) : Option Verb := level.verbs.find? fun v => v.text = s

end Level

end Redaction.Cli
