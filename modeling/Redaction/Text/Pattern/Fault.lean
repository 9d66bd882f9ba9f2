import Redaction.Text.Pieces

/-!
# Faults of patterns

What can be wrong with the text of a pattern, and the message that shows where.
-/

namespace Redaction.Text.Pattern

/-- A place of a text by its line and its column, both from 1 on. -/
structure Place where
  line : Nat
  column : Nat
  deriving DecidableEq, Repr

namespace Place

def start : Place := ⟨1, 1⟩

/-- The place behind a character. -/
def after (p : Place) (c : Char) : Place :=
  if c = '\n' then ⟨p.line + 1, 1⟩ else ⟨p.line, p.column + 1⟩

end Place

/-- What stands between two places. -/
structure Span where
  start : Place
  stop : Place
  deriving DecidableEq, Repr

inductive FaultKind
  | classEscape
  | classRange
  | classRangeEnd
  | classUnclosed
  | number
  | hexEmpty
  | hexValue
  | hexDigit
  | escapeUnfinished
  | escapeUnknown
  | flagNegationLast
  | flagRepeated
  | flagNegationRepeated
  | flagUnfinished
  | flagUnknown
  | nameRepeated
  | nameEmpty
  | nameChar
  | nameUnclosed
  | groupUnclosed
  | groupUnopened
  | countRange
  | countMissing
  | countUnclosed
  | nothingToRepeat
  | wordUnclosed
  | wordUnknown
  | wordUnfinished
  | propertyName
  | backReference
  | lookAround
  | notUnicode
  | notUtf8
  | property
  | propertyValue
  | unicodeClass
  | unicodeCase
  deriving DecidableEq, Repr

def FaultKind.text : FaultKind → String
  | classEscape => "invalid escape sequence found in character class"
  | classRange => "invalid character class range, the start must be <= the end"
  | classRangeEnd => "invalid range boundary, must be a literal"
  | classUnclosed => "unclosed character class"
  | number => "decimal literal invalid"
  | hexEmpty => "hexadecimal literal empty"
  | hexValue => "hexadecimal literal is not a Unicode scalar value"
  | hexDigit => "invalid hexadecimal digit"
  | escapeUnfinished => "incomplete escape sequence, reached end of pattern prematurely"
  | escapeUnknown => "unrecognized escape sequence"
  | flagNegationLast => "dangling flag negation operator"
  | flagRepeated => "duplicate flag"
  | flagNegationRepeated => "flag negation operator repeated"
  | flagUnfinished => "expected flag but got end of regex"
  | flagUnknown => "unrecognized flag"
  | nameRepeated => "duplicate capture group name"
  | nameEmpty => "empty capture group name"
  | nameChar => "invalid capture group character"
  | nameUnclosed => "unclosed capture group name"
  | groupUnclosed => "unclosed group"
  | groupUnopened => "unopened group"
  | countRange => "invalid repetition count range, the start must be <= the end"
  | countMissing => "repetition quantifier expects a valid decimal"
  | countUnclosed => "unclosed counted repetition"
  | nothingToRepeat => "repetition operator missing expression"
  | wordUnclosed =>
    "special word boundary assertion is either unclosed or contains an invalid character"
  | wordUnknown => "unrecognized special word boundary assertion, " ++
      "valid choices are: start, end, start-half or end-half"
  | wordUnfinished => "found either the beginning of a special word boundary or a bounded " ++
      "repetition on a \\b with an opening brace, but no closing brace"
  | propertyName => "invalid Unicode character class"
  | backReference => "backreferences are not supported"
  | lookAround => "look-around, including look-ahead and look-behind, is not supported"
  | notUnicode => "Unicode not allowed here"
  | notUtf8 => "pattern can match invalid UTF-8"
  | property => "Unicode property not found"
  | propertyValue => "Unicode property value not found"
  | unicodeClass => "Unicode-aware Perl class not found " ++
      "(make sure the unicode-perl feature is enabled)"
  | unicodeCase => "Unicode-aware case insensitivity matching is not available " ++
      "(make sure the unicode-case feature is enabled)"

structure Fault where
  kind : FaultKind
  span : Span
  /-- What came first and must not come again. -/
  earlier? : Option Span
  deriving DecidableEq, Repr

namespace Fault

/-- The lines of a text. A line feed at its end does not start another one. -/
def lines (text : List Char) : List (List Char) :=
  let pieces := pieces '\n' text
  let whole := pieces.dropLast.map fun line =>
    if line.getLast? = some '\r' then line.dropLast else line
  match pieces.getLast? with
  | some (c :: cs) => whole ++ [c :: cs]
  | _ => whole

def blanks (n : Nat) : List Char := List.replicate n ' '

/-- Signs below the spans of a line, which are in order. -/
def marks (spans : List Span) : List Char :=
  (spans.foldl (fun (drawn, column) s =>
    let gap := s.start.column - 1 - column
    let length := max 1 (s.stop.column - s.start.column)
    (drawn ++ blanks gap ++ List.replicate length '^', column + gap + length)) ([], 0)).1

/-- The text with signs below the spans. If there are several lines, they are numbered. -/
def draw (text : List Char) (spans : List Span) : List Char :=
  let lines := lines text
  let count := lines.length + if text.getLast? = some '\n' then 1 else 0
  let width := if count ≤ 1 then 0 else (toString count).length
  let label (n : Nat) : List Char :=
    if width = 0 then blanks 4
    else
      let digits := (toString n).toList
      blanks (width - digits.length) ++ digits ++ [':', ' ']
  (lines.zipIdx 1).flatMap fun (line, n) =>
    let below := spans.filter fun s => s.start.line = n && s.stop.line = n
    let signs := if below.isEmpty then []
      else blanks (if width = 0 then 4 else width + 2) ++ marks below ++ ['\n']
    label n ++ line ++ ['\n'] ++ signs

/-- A span of several lines in words. -/
def describe (s : Span) : String :=
  s!"on line {s.start.line} (column {s.start.column}) " ++
    s!"through line {s.stop.line} (column {s.stop.column - 1})"

def message (f : Fault) (text : List Char) : String :=
  let spans := f.earlier?.toList ++ [f.span]
  let drawing := String.ofList (draw text spans)
  let reason := s!"error: {f.kind.text}"
  if text.contains '\n' then
    let rule := String.ofList (List.replicate 79 '~') ++ "\n"
    let long := spans.filter fun s => s.start.line ≠ s.stop.line
    let notes := if long.isEmpty then "" else "\n".intercalate (long.map describe) ++ "\n"
    "regex parse error:\n" ++ rule ++ drawing ++ rule ++ notes ++ reason
  else "regex parse error:\n" ++ drawing ++ reason

end Fault

end Redaction.Text.Pattern
