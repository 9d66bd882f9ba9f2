import Redaction.Log
import Redaction.Text.Blank
import Redaction.Text.Pattern.Parser
import Redaction.Text.Pieces
import Redaction.Text.Terminal

/-!
# Which entries are written

A filter is a list of directives. A directive sets a threshold for the sources whose name starts
with its own; of those that fit a source, the one with the longest name decides. A directive
without a name fits every source. A filter may also have a pattern, which must occur in the text of
an entry.
-/

namespace Redaction.Log

/-- The last level that is written. -/
inductive Threshold
  | off
  | upTo (level : Level)
  deriving DecidableEq, Repr

namespace Threshold

def text : Threshold → String
  | off => "OFF"
  | upTo level => level.text

def admits : Threshold → Level → Bool
  | off, _ => false
  | upTo last, level => level.rank ≤ last.rank

/-- Everything is written. -/
def everything : Threshold := upTo .trace

/-- The threshold with this text, in letters of either case. -/
def ofText? (s : List Char) : Option Threshold :=
  [off, upTo .error, upTo .warn, upTo .info, upTo .debug, upTo .trace].find? fun t =>
    t.text.toList = s.map Char.toUpper

/-- The threshold that the user asks for: silence, or the search for errors. -/
def ofFlags (quiet debug : Bool) : Option Threshold :=
  if quiet then some off else if debug then some (upTo .debug) else none

end Threshold

structure Directive where
  name? : Option (List Char)
  threshold : Threshold
  deriving DecidableEq, Repr

namespace Directive

def fits (d : Directive) (source : Source) : Bool :=
  match d.name? with
  | some name => name.isPrefixOf source.text.toList
  | none => true

def nameLength (d : Directive) : Nat := (d.name?.getD []).length

/-- Reads `level`, `name=level`, `name=` or `name`. Without a level everything is written. What is
no level is given back as the error. -/
def parse (piece : List Char) : Except (List Char) Directive :=
  match Text.pieces '=' piece with
  | [word] =>
    match Threshold.ofText? word with
    | some t => .ok ⟨none, t⟩
    | none => .ok ⟨some word, .everything⟩
  | [name, level] =>
    let level := Text.trim level
    if level.isEmpty then .ok ⟨some name, .everything⟩
    else match Threshold.ofText? level with
      | some t => .ok ⟨some name, t⟩
      | none => .error level
  | _ => .error piece

end Directive

structure Filter where
  directives : List Directive
  pattern? : Option Text.Pattern
  deriving DecidableEq, Repr

/-- What is passed over in the text of a filter. -/
inductive Unread
  /-- The text has more parts than directives and a pattern. -/
  | parts (spec : String)
  | directive (text : String)
  | pattern (text : String) (problem : Text.Pattern.Problem)
  deriving DecidableEq, Repr

def Unread.message : Unread → String
  | parts spec => s!"invalid logging spec '{spec}' (too many '/'s)"
  | directive text => s!"invalid logging spec '{text}'"
  | pattern text problem => s!"invalid regex filter - {problem.message text.toList}"

namespace Filter

/-- Without directives and a pattern. -/
def blank : Filter := ⟨[], none⟩

/-- The filter with one more directive, in the place of the one with its name. -/
def insert (f : Filter) (d : Directive) : Filter :=
  { f with directives :=
      if f.directives.any (·.name? = d.name?) then
        f.directives.map fun old => if old.name? = d.name? then d else old
      else f.directives ++ [d] }

/-- The filter with the directives between commas that can be read. -/
def insertAll (f : Filter) (directives : List Char) : Filter × List Unread :=
  let pieces := ((Text.pieces ',' directives).map Text.trim).filter (!·.isEmpty)
  pieces.foldl (fun (f, unread) piece =>
    match Directive.parse piece with
    | .ok d => (f.insert d, unread)
    | .error text => (f, unread ++ [.directive (String.ofList text)])) (f, [])

/-- The filter with the pattern that a text denotes, if it can be read. -/
def require (f : Filter) (pattern : List Char) : Filter × List Unread :=
  match Text.Pattern.parse pattern with
  | .ok p => ({ f with pattern? := some p }, [])
  | .error problem => (f, [.pattern (String.ofList pattern) problem])

/-- Reads directives between commas, and behind a slash a pattern. -/
def parse (spec : String) : Filter × List Unread :=
  match Text.pieces '/' spec.toList with
  | [directives] => blank.insertAll directives
  | [directives, pattern] =>
    let (f, unread) := blank.insertAll directives
    let (f, unreadPattern) := f.require pattern
    (f, unread ++ unreadPattern)
  | _ => (blank, [.parts spec])

/-- The directive for a source: of those with the longest name the last. -/
def directive? (f : Filter) (source : Source) : Option Directive :=
  (f.directives.filter (·.fits source)).foldl (fun best d =>
    match best with
    | some b => if b.nameLength ≤ d.nameLength then some d else some b
    | none => some d) none

/-- A filter without directives lets only errors through. -/
def threshold (f : Filter) (source : Source) : Threshold :=
  if f.directives.isEmpty then .upTo .error
  else match f.directive? source with
    | some d => d.threshold
    | none => .off

def admits (f : Filter) (e : Entry) : Bool :=
  (f.threshold e.source).admits e.level && f.pattern?.all (·.occursIn e.text.toList)

/-- The filter that is asked for by a text, if there is one, and by a threshold for every source
that has no directive of its own. -/
def of (spec? : Option String) (threshold? : Option Threshold) : Filter × List Unread :=
  let (f, unread) := parse (spec?.getD "warn")
  match threshold? with
  | some t => (f.insert ⟨none, t⟩, unread)
  | none => (f, unread)

end Filter

/-- An entry as lines: the level in five columns, the source and the text; further lines of the
text are indented. What would control a terminal is left out. -/
def Entry.line (e : Entry) : String :=
  let level := e.level.text
  let padding := String.ofList (List.replicate (5 - level.length) ' ')
  let text := e.text.toList.flatMap fun c => if c = '\n' then "\n    ".toList else [c]
  let line := s!"[{level}{padding} {e.source.text}] {String.ofList text}\n"
  String.ofList (Text.Terminal.shown line.toList)

end Redaction.Log
