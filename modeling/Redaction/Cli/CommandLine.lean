import Redaction.Cli.Switch
import Redaction.Text.Pieces

/-!
# The command line

Arguments are read from left to right. An operand may be attached to its switch, behind `=` or
right behind a short name, or be the next argument. A switch whose operand stands apart is settled
when the next switch comes or the arguments end; an argument that does not fit comes before what is
wrong with a switch that is not settled. `--` ends the switches.
-/

namespace Redaction.Cli

/-- Why there is nothing to run. -/
inductive UsageError
  | helpAsked (level : Level)
  | versionAsked
  /-- There are no arguments. -/
  | nothingAsked
  | noCommand
  | unknownCommand (text : String)
  | unknownArgument (text : String)
  | repeated (s : Switch)
  | noValue (s : Switch)
  | unexpectedValue (s : Switch) (value : String)
  deriving DecidableEq, Repr

/-- Asking for help or for the version is no failure. -/
def UsageError.exitCode : UsageError → UInt32
  | helpAsked _ | versionAsked => 0
  | _ => 2

/-! ### The switches of one level -/

/-- What has been given at a level. -/
structure Given where
  level : Level
  /-- The settled switches with their operands, in order. -/
  settled : List (Switch × List String)
  /-- The switch whose operand stands apart, and the operand if it has come. -/
  waiting : Option (Switch × Option String)
  deriving Repr

namespace Given

def start (level : Level) : Given := ⟨level, [], none⟩

def has (g : Given) (s : Switch) : Bool := g.settled.any (·.1 = s)

/-- The operands of a switch. -/
def operands (g : Given) (s : Switch) : List String :=
  (g.settled.filter (·.1 = s)).flatMap Prod.snd

/-- An operand is to come. -/
def waits (g : Given) : Bool :=
  match g.waiting with
  | some (_, none) => true
  | _ => false

/-- The names between commas. -/
def names (text : String) : List String := (Text.pieces ',' text.toList).map String.ofList

/-- Adds a switch with its operand. Only names may be given in several places. -/
def enter (g : Given) (s : Switch) (operand? : Option String) : Except UsageError Given :=
  let add (operands : List String) : Given := { g with settled := g.settled ++ [(s, operands)] }
  match s, s.operand, operand? with
  | .help, _, _ => .error (.helpAsked g.level)
  | .version, _, _ => .error .versionAsked
  | _, .nothing, _ => if g.has s then .error (.repeated s) else .ok (add [])
  | _, _, none => .error (.noValue s)
  | _, .file, some file =>
    if g.has s then .error (.repeated s)
    else if file.isEmpty then .error (.noValue s)
    else .ok (add [file])
  | _, .names, some text => .ok (add (names text))

/-- Settles the switch whose operand stands apart. -/
def settle (g : Given) : Except UsageError Given :=
  match g.waiting with
  | some (s, operand?) => { g with waiting := none }.enter s operand?
  | none => .ok g

/-- Adds a switch with an attached operand, or one without operand. -/
def add (g : Given) (s : Switch) (operand? : Option String) : Except UsageError Given := do
  (← g.settle).enter s operand?

/-- Adds a switch whose operand is to come. -/
def await (g : Given) (s : Switch) : Except UsageError Given := do
  return { ← g.settle with waiting := some (s, none) }

/-- Reads an argument behind its two hyphens. -/
def readLong (g : Given) (text : List Char) : Except UsageError Given :=
  let (name, value?) := match Text.cut? '=' text with
    | some (name, value) => (name, some (String.ofList value))
    | none => (text, none)
  match g.level.long? (String.ofList name) with
  | none => .error (.unknownArgument (String.ofList ('-' :: '-' :: name)))
  | some s =>
    match s.operand, value? with
    | .nothing, some value => .error (.unexpectedValue s value)
    | .nothing, none => g.add s none
    | _, some value => g.add s (some value)
    | _, none => g.await s

/-- Reads an argument behind its hyphen: short names, the last of which may have an operand. -/
def readShort (g : Given) : List Char → Except UsageError Given
  | [] => .ok g
  | c :: cs =>
    match g.level.short? c with
    | none => .error (.unknownArgument (String.ofList ['-', c]))
    | some s =>
      match s.operand, cs with
      | .nothing, cs => do readShort (← g.add s none) cs
      | _, [] => g.await s
      | _, '=' :: value => g.add s (some (String.ofList value))
      | _, value => g.add s (some (String.ofList value))

/-- The error for an argument that is neither a switch nor an operand. -/
def stray (g : Given) (behindHyphens : Bool) (arg : String) : UsageError :=
  if g.level.verbs.isEmpty || (behindHyphens && (g.level.verb? arg).isSome) then
    .unknownArgument arg
  else .unknownCommand arg

/-- Reads the arguments of a level up to a verb, which is given back with the arguments behind
it. -/
def read (g : Given) : List String → Except UsageError (Given × Option (Verb × List String))
  | [] => do return (← g.settle, none)
  | arg :: args =>
    match if g.waits then none else g.level.verb? arg with
    | some verb => do return (← g.settle, some (verb, args))
    | none =>
      match arg.toList with
      | ['-', '-'] =>
        match args with
        | [] => do return (← g.settle, none)
        | arg :: _ => .error (g.stray true arg)
      | '-' :: '-' :: text => do read (← g.readLong text) args
      | '-' :: c :: cs => do read (← g.readShort (c :: cs)) args
      | _ =>
        match g.waiting with
        | some (s, none) => read { g with waiting := some (s, some arg) } args
        | _ => .error (g.stray false arg)

end Given

/-! ### The whole line -/

/-- Where the rules come from. -/
structure RuleSource where
  /-- The user's rule file. -/
  file? : Option String
  noDefaults : Bool
  disabled : List String
  deriving DecidableEq, Repr, Inhabited

structure ScrubOptions where
  inputFile? : Option String
  output? : Option String
  pretty : Bool
  failOnError : Bool
  source : RuleSource
  deriving DecidableEq, Repr, Inhabited

structure RulesOptions where
  json : Bool
  source : RuleSource
  deriving DecidableEq, Repr, Inhabited

inductive Command
  | scrub (options : ScrubOptions)
  | rules (options : RulesOptions)
  deriving DecidableEq, Repr

structure CommandLine where
  quiet : Bool
  debug : Bool
  command : Command
  deriving DecidableEq, Repr

namespace CommandLine

/-- The rule source of a level. A variable of the environment may name the file instead. -/
def ruleSource (g : Given) (named? : Option String) : Except UsageError RuleSource := do
  let file? ← match (g.operands .config).head?, named? with
    | some file, _ => pure (some file)
    | none, some file => if file.isEmpty then throw (.noValue .config) else pure (some file)
    | none, none => pure none
  return ⟨file?, g.has .noDefaults, g.operands .disable⟩

/-- Why a request for help cannot be met, or the help. -/
def helpFor (level : Level) : List String → UsageError
  | [] => .helpAsked level
  | arg :: args =>
    match level.verb? arg with
    | some .scrub => helpFor .scrub args
    | some .rules => helpFor .rules args
    | some .help =>
      match args with
      | [] => .helpAsked .program
      | arg :: _ => .unknownCommand arg
    | none => .unknownCommand arg

/-- Reads the switches of a command. -/
def readCommand (level : Level) (args : List String) : Except UsageError Given := do
  return (← (Given.start level).read args).1

/-- Reads a command line. -/
def parse (args : List String) (named? : Option String) : Except UsageError CommandLine := do
  let (outer, rest) ← (Given.start .program).read args
  let line (g : Given) (command : Command) : CommandLine :=
    ⟨outer.has .quiet || g.has .quiet, outer.has .debug || g.has .debug, command⟩
  match rest with
  | none => throw (if outer.settled.isEmpty then .nothingAsked else .noCommand)
  | some (.help, args) => throw (helpFor .program args)
  | some (.scrub, args) => do
    let g ← readCommand .scrub args
    return line g (.scrub {
      inputFile? := (g.operands .inputFile).head?
      output? := (g.operands .output).head?
      pretty := g.has .pretty
      failOnError := g.has .failOnError
      source := ← ruleSource g named? })
  | some (.rules, args) => do
    let g ← readCommand .rules args
    return line g (.rules { json := g.has .json, source := ← ruleSource g named? })

end CommandLine

end Redaction.Cli
