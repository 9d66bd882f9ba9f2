import Redaction.Cli.CommandLine

/-!
# Help

The help of each level of the command line, and what is said about a line that cannot be run.
-/

namespace Redaction.Cli

def programName : String := "eventscrub"

def programVersion : String := "0.1.0"

def about : String := "Scrub sensitive fields out of error-report events"

/-- Two columns, the first as wide as its widest entry. -/
def columns (rows : List (String × String)) : List String :=
  let width := (rows.map fun r => r.1.length).foldl max 0
  rows.map fun (left, right) =>
    "  " ++ left ++ String.ofList (List.replicate (width - left.length) ' ') ++ "  " ++ right

/-- How a switch is written, with what follows it. -/
def Switch.usage (s : Switch) : String :=
  let short := match s.short? with
    | some c => String.ofList ['-', c, ',', ' ']
    | none => "    "
  let operand := match s.operand with
    | .nothing => ""
    | .file => " <FILE>"
    | .names => " <NAMES>"
  short ++ "--" ++ s.long ++ operand

namespace Level

def usage : Level → String
  | program => s!"Usage: {programName} [OPTIONS] <COMMAND>"
  | scrub => s!"Usage: {programName} {Verb.scrub.text} [OPTIONS]"
  | rules => s!"Usage: {programName} {Verb.rules.text} [OPTIONS]"

def about : Level → String
  | program => Cli.about
  | scrub => Verb.scrub.purpose
  | rules => Verb.rules.purpose

def help (level : Level) : String :=
  let commands :=
    if level.verbs.isEmpty then []
    else "Commands:" :: columns (level.verbs.map fun v => (v.text, v.purpose)) ++ [""]
  let options := "Options:" :: columns (level.switches.map fun s => (s.usage, s.purpose))
  "\n".intercalate (level.about :: "" :: level.usage :: "" :: commands ++ options) ++ "\n"

end Level

namespace UsageError

/-- What is wrong; nothing if the user has asked for help. -/
def problem? : UsageError → Option String
  | helpAsked _ | versionAsked | nothingAsked => none
  | noCommand => some s!"'{programName}' requires a subcommand but one was not provided"
  | unknownCommand text => some s!"unrecognized subcommand '{text}'"
  | unknownArgument text => some s!"unexpected argument '{text}' found"
  | repeated s => some s!"the argument '{s.usage.trimAscii}' cannot be used multiple times"
  | noValue s => some s!"a value is required for '{s.usage.trimAscii}' but none was supplied"
  | unexpectedValue s value =>
    some s!"unexpected value '{value}' for '{s.usage.trimAscii}' found; no more were expected"

/-- What is answered instead of running a command. -/
def text (e : UsageError) : String :=
  match e, e.problem? with
  | helpAsked level, _ => level.help
  | versionAsked, _ => s!"{programName} {programVersion}\n"
  | _, some problem => s!"error: {problem}\n\nFor more information, try '--help'.\n"
  | _, none => Level.program.help

end UsageError

end Redaction.Cli
