import Redaction.Json.Reader
import Redaction.Json.Writer
import Redaction.Rules.Compile

/-!
# Scrubbing a text

A JSON text is read, scrubbed and written again. The rules are compiled before the text is read.
-/

namespace Redaction

inductive Style
  | compact
  | pretty
  deriving DecidableEq, Repr, Inhabited

def Style.write : Style → Json → String
  | compact => Json.compact
  | pretty => Json.pretty

/-- The scrubbed text, and how it went. -/
structure Report where
  output : String
  rulesApplied : Nat
  failures : Failures
  records : Array Record

inductive ReportError
  | compile (error : CompileError)
  | notJson
  deriving DecidableEq, Repr

def ReportError.message : ReportError → String
  | compile error => s!"Failed to compile scrub rules: {error.message}"
  | notJson => "Input is not valid JSON"

/-- Scrubs a JSON text by the rules of a configuration. -/
def Config.scrubText (c : Config) (input : String) (style : Style) : Except ReportError Report := do
  let scrubber ← c.compile.mapError .compile
  let some event := Json.parse? input | throw .notJson
  let (event, telemetry) := scrubber.scrub event .empty
  return {
    output := style.write event
    rulesApplied := scrubber.rules.length
    failures := telemetry.failures.since .zero
    records := telemetry.records }

/-- What is logged while a text is scrubbed with this outcome. -/
def Config.scrubEntries (c : Config) (outcome : Except ReportError Report) : List Log.Entry :=
  let compiled := c.compileNotices.map Notice.toEntry
  match outcome with
  | .error (.compile _) => []
  | .error .notJson => compiled
  | .ok report => compiled ++ report.records.toList.map Record.toEntry

end Redaction
