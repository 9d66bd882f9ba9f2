import Redaction.Cli.CommandLine
import Redaction.Cli.Host
import Redaction.Log.Filter
import Redaction.Message
import Redaction.Report
import Redaction.Rules.Json
import Redaction.Rules.Load
import Redaction.Rules.Merge
import Redaction.Rules.Table

/-!
# Running a command

`scrub` loads the rules, reads an event, scrubs it and writes it; `rules` loads the rules and shows
them. Nothing is written before all that can fail has been done, apart from making the output file.
What is logged and the messages to the user go to the error output.
-/

namespace Redaction.Cli

/-- Why a command is given up. -/
inductive Failure
  | readConfig (file : String) (error : FileError)
  | loadConfig (file : String) (error : LoadError)
  | compile (error : CompileError)
  /-- The input file, or the standard input, cannot be read. -/
  | readEvent (file? : Option String) (error : FileError)
  | scrub (error : ReportError)
  | createOutput (file : String) (error : FileError)
  deriving DecidableEq, Repr

def Failure.message : Failure → String
  | readConfig file error => s!"Failed to read config file {file}: {error.message}"
  | loadConfig file error => s!"Failed to load config file {file}: {error.message}"
  | compile error => error.message
  | readEvent (some file) error => s!"Failed to read input file: {file}: {error.message}"
  | readEvent none error => s!"Failed to read event from stdin: {error.message}"
  | scrub error => error.message
  | createOutput file error => s!"Failed to create output file: {file}: {error.message}"

/-- What the environment of a run says. -/
structure Environment where
  /-- The file of the user's rules, if the command line names none. -/
  configFile? : Option String
  /-- What is logged. -/
  logSpec? : Option String
  /-- The directory of the user's settings. -/
  configDirectory? : Option String
  /-- The error output is a terminal. -/
  colours : Bool
  deriving DecidableEq, Repr, Inhabited

/-- The place of the user's rules if none is named. -/
def Environment.userFile? (e : Environment) : Option String :=
  e.configDirectory?.map fun d => (if d.endsWith "/" then d else d ++ "/") ++ "eventscrub/rules.yaml"

/-- A run of a command on a host. -/
structure Session (m : Type → Type) where
  host : Host m
  environment : Environment
  filter : Log.Filter

namespace Session

variable {m : Type → Type} [Monad m]

/-! ### Log and messages -/

/-- Writes those entries to the error output that the filter admits. -/
def log (s : Session m) (entries : List Log.Entry) : m Unit :=
  (entries.filter s.filter.admits).forM fun e => s.host.putError e.line

def notices (s : Session m) (ns : List Notice) : m Unit := s.log (ns.map Notice.toEntry)

def tell (s : Session m) (tone : Tone) (text : String) : m Unit :=
  s.host.putError (tone.line text s.environment.colours)

/-! ### Loading rules -/

/-- The configuration in a file. -/
def loadFile (s : Session m) (file : String) : ExceptT Failure m Config := do
  s.notices [.loading file]
  let bytes ← s.host.readFile file
  let text ← match bytes.bind decodeText with
    | .ok text => pure text
    | .error e => throw (.readConfig file e)
  let (outcome, notices) := Config.load text
  s.notices notices
  match outcome with
  | .ok config => do
    s.notices [.loaded config.rules.length file]
    return config
  | .error e => throw (.loadConfig file e)

/-- The rules that are built in, unless they are not wanted. -/
def loadBuiltin (s : Session m) (source : RuleSource) : m Config :=
  if source.noDefaults then do
    s.log [⟨.debug, .commands, "Built-in rules skipped (--no-defaults)."⟩]
    return .empty
  else do
    s.notices [.loadingBuiltin, .loadedBuiltin Config.builtin.rules.length]
    return .builtin

/-- The file of the user's rules: the one that is named, or the usual one if it is there. -/
def userFile? (s : Session m) (source : RuleSource) : m (Option String) :=
  match source.file?, s.environment.userFile? with
  | some file, _ => return some file
  | none, some file => return if ← s.host.isFile file then some file else none
  | none, none => return none

/-- The rules that the command line asks for. -/
def loadRules (s : Session m) (source : RuleSource) : ExceptT Failure m Config := do
  let base ← s.loadBuiltin source
  let user ← match ← s.userFile? source with
    | some file => some <$> s.loadFile file
    | none => do
      s.log [⟨.info, .commands, "No user rule file found; using built-in rules only."⟩]
      pure none
  s.notices (base.mergeNotices user)
  let merged := base.merge user
  s.notices (merged.disableNotices source.disabled)
  return merged.disable source.disabled

/-! ### Commands -/

/-- The text of the event. -/
def readEvent (s : Session m) (file? : Option String) : ExceptT Failure m String := do
  let bytes ← match file? with
    | some file => s.host.readFile file
    | none => Except.ok <$> s.host.readInput
  match bytes.bind decodeText with
  | .ok text => return text
  | .error e => throw (.readEvent file? e)

/-- Writes a line to a file or to the standard output. -/
def writeEvent (s : Session m) (file? : Option String) (text : String) : ExceptT Failure m Unit :=
  match file? with
  | none => s.host.putOutput (text ++ "\n")
  | some file => do
    match ← s.host.writeFile file (text ++ "\n") with
    | .ok () => return ()
    | .error e => throw (.createOutput file e)

/-- How scrubbing went, in words. -/
def summarize (s : Session m) (report : Report) : m Unit :=
  let f := report.failures
  if f.total = 0 then
    s.tell .info s!"Applied {report.rulesApplied} rule(s) with no failures."
  else
    s.tell .warning <|
      s!"Applied {report.rulesApplied} rule(s): {f.redactorErrors} redactor failure(s), " ++
      s!"{f.traversalErrors} traversal failure(s). Search the log for {Record.marker}."

def scrub (s : Session m) (o : ScrubOptions) (quiet : Bool) : ExceptT Failure m Report := do
  s.log [⟨.info, .scrubCommand, "Starting scrub operation."⟩]
  let config ← s.loadRules o.source
  let input ← s.readEvent o.inputFile?
  let outcome := config.scrubText input (if o.pretty then .pretty else .compact)
  s.log (config.scrubEntries outcome)
  let report ← match outcome with
    | .ok report => pure report
    | .error e => throw (.scrub e)
  s.log [⟨.debug, .scrubCommand,
    s!"Event scrubbed with {report.rulesApplied} rule(s). " ++
    s!"Input length: {input.utf8ByteSize}, output length: {report.output.utf8ByteSize}"⟩]
  s.writeEvent o.output? report.output
  if !quiet then s.summarize report
  s.log [⟨.info, .scrubCommand, "Scrub operation completed."⟩]
  return report

def rules (s : Session m) (o : RulesOptions) : ExceptT Failure m Unit := do
  let config ← s.loadRules o.source
  match config.compile with
  | .ok _ => s.notices config.compileNotices
  | .error e => throw (.compile e)
  let text := if o.json then Json.pretty config.rulesJson else config.table.render
  s.host.putOutput (text ++ "\n")

/-- Failures count for the exit code only if they are asked for. -/
def scrubExitCode (o : ScrubOptions) (report : Report) : UInt32 :=
  if o.failOnError && 0 < report.failures.total then 2 else 0

/-- Runs a command and gives its exit code. -/
def command (s : Session m) (line : CommandLine) : ExceptT Failure m UInt32 :=
  match line.command with
  | .scrub o => do return scrubExitCode o (← s.scrub o line.quiet)
  | .rules o => do
    s.rules o
    return 0

end Session

variable {m : Type → Type} [Monad m]

/-- Runs a command line and gives its exit code. -/
def run (host : Host m) (environment : Environment) (line : CommandLine) : m UInt32 := do
  let threshold? := Log.Threshold.ofFlags line.quiet line.debug
  let (filter, unread) := Log.Filter.of environment.logSpec? threshold?
  unread.forM fun u => host.putError s!"warning: {u.message}, ignoring it\n"
  let s : Session m := ⟨host, environment, filter⟩
  match ← (s.command line).run with
  | .ok code => return code
  | .error failure => do
    s.tell .error failure.message
    return 1

end Redaction.Cli
