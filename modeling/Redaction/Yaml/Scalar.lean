import Redaction.Text.Hex
import Redaction.Yaml.Cursor
import Redaction.Yaml.Token

/-!
# Scalars of a YAML text

Plain, quoted and block scalars. A single line break between two lines of text is folded to a
space; of several, all but the first are kept. A literal block scalar keeps every line break.
-/

namespace Redaction.Yaml

open Redaction.Text (hexValue?)

/-! ### Folding -/

/-- The blanks between two parts of a scalar: on one line, or the first line break and the further
ones. -/
inductive Gap
  | inline (blanks : List Char)
  | broken (first further : List Char)

namespace Gap

/-- What a gap contributes to the text of a scalar. -/
def fold : Gap → List Char
  | inline blanks => blanks
  | broken ['\n'] [] => [' ']
  | broken ['\n'] further => further
  | broken first further => first ++ further

def isBroken : Gap → Bool
  | inline _ => false
  | broken _ _ => true

/-- Reads spaces, tabs and line breaks onto a gap. On a further line, no tab may stand before the
column `indent`. -/
def read (indent : Nat) : Nat → Gap → Cursor → Except Problem (Gap × Cursor)
  | 0, gap, c => .ok (gap, c)
  | fuel + 1, gap, c =>
    match c.rest with
    | [] => .ok (gap, c)
    | x :: _ =>
      if isSpaceOrTab x then
        match gap with
        | inline blanks => read indent fuel (inline (blanks ++ [x])) (c.skip 1)
        | broken _ _ =>
          if x = '\t' ∧ c.column < indent then .error .tab
          else read indent fuel gap (c.skip 1)
      else if isBreak x then
        let (text, c) := c.readBreak
        match gap with
        | inline _ => read indent fuel (broken text []) c
        | broken first further => read indent fuel (broken first (further ++ text)) c
      else .ok (gap, c)

end Gap

/-! ### Plain scalars -/

/-- The characters that end a plain scalar in a flow collection. -/
def flowIndicators : List Char := [',', '[', ']', '\x7b', '\x7d']

/-- Reads one stretch of a plain scalar without blanks; `done` holds its characters, last first. -/
def plainRun (inFlow : Bool) (done : List Char) : List Char → Except Problem (List Char × List Char)
  | [] => .ok (done.reverse, [])
  | x :: rest =>
    if isSpaceOrTab x || isBreak x then .ok (done.reverse, x :: rest)
    else if inFlow && x = ':' && startsWithAny ('?' :: flowIndicators) rest then .error .plainColon
    else if (x = ':' && atBlank rest) || (inFlow && flowIndicators.contains x) then
      .ok (done.reverse, x :: rest)
    else plainRun inFlow (x :: done) rest

/-- Reads a plain scalar, whose lines start at the column `indent` or behind it unless it stands in
a flow collection. `text` is what has been read, `gap` the blanks after it. Says also whether the
scalar ends behind a line break. -/
def plainFrom (inFlow : Bool) (indent : Nat) :
    Nat → List Char → Gap → Cursor → Except Problem (List Char × Bool × Cursor)
  | 0, text, gap, c => .ok (text, gap.isBroken, c)
  | fuel + 1, text, gap, c =>
    if c.atDocumentMark || startsWithAny ['#'] c.rest then .ok (text, gap.isBroken, c)
    else do
      let (run, _) ← plainRun inFlow [] c.rest
      let c := c.skip run.length
      let (text, gap) := if run.isEmpty then (text, gap) else (text ++ gap.fold ++ run, .inline [])
      match c.rest with
      | [] => return (text, gap.isBroken, c)
      | x :: _ =>
        if !(isSpaceOrTab x || isBreak x) then return (text, gap.isBroken, c)
        else
          let (gap, c) ← gap.read indent c.rest.length c
          if !inFlow && c.column < indent then return (text, gap.isBroken, c)
          else plainFrom inFlow indent fuel text gap c

/-- Reads a plain scalar. -/
def readPlain (inFlow : Bool) (indent : Nat) (c : Cursor) :
    Except Problem (String × Bool × Cursor) := do
  let (text, broken, c) ← plainFrom inFlow indent (c.rest.length + 1) [] (.inline []) c
  return (String.ofList text, broken, c)

/-! ### Quoted scalars -/

/-- The number that exactly `n` hexadecimal digits denote. -/
def hexNumber? (n : Nat) (cs : List Char) : Option Nat :=
  if cs.length < n then none
  else (cs.take n).foldlM (fun v c => (hexValue? c).map (v * 16 + ·)) 0

/-- The character that an escape stands for, given what follows the backslash, and how many
characters it takes. -/
def escape? : List Char → Option (Char × Nat)
  | [] => none
  | c :: rest =>
    let code (n : Nat) : Option (Char × Nat) := do
      let v ← hexNumber? n rest
      if (0xD800 ≤ v && v ≤ 0xDFFF) || 0x10FFFF < v then none else some (Char.ofNat v, n + 1)
    match c with
    | '0' => some ('\x00', 1)
    | 'a' => some ('\x07', 1)
    | 'b' => some ('\x08', 1)
    | 't' | '\t' => some ('\t', 1)
    | 'n' => some ('\n', 1)
    | 'v' => some ('\x0b', 1)
    | 'f' => some ('\x0c', 1)
    | 'r' => some ('\r', 1)
    | 'e' => some ('\x1b', 1)
    | ' ' => some (' ', 1)
    | '"' => some ('"', 1)
    | '/' => some ('/', 1)
    | '\\' => some ('\\', 1)
    | 'N' => some ('\u0085', 1)
    | '_' => some ('\u00a0', 1)
    | 'L' => some ('\u2028', 1)
    | 'P' => some ('\u2029', 1)
    | 'x' => code 2
    | 'u' => code 4
    | 'U' => code 8
    | _ => none

/-- Why a stretch of a quoted scalar ends. -/
inductive RunEnd
  /-- At a blank, a line break, the closing quote or the end of the text. -/
  | here
  /-- Behind an escaped line break. -/
  | escapedBreak

/-- Reads one stretch of a quoted scalar without blanks; `done` holds its characters, last
first. -/
def quotedRun (single : Bool) :
    Nat → List Char → Cursor → Except Problem (List Char × RunEnd × Cursor)
  | 0, done, c => .ok (done, .here, c)
  | fuel + 1, done, c =>
    match c.rest with
    | [] => .ok (done, .here, c)
    | x :: rest =>
      if isSpaceOrTab x || isBreak x then .ok (done, .here, c)
      else if single then
        match x, rest with
        | '\'', '\'' :: _ => quotedRun single fuel ('\'' :: done) (c.skip 2)
        | '\'', _ => .ok (done, .here, c)
        | _, _ => quotedRun single fuel (x :: done) (c.skip 1)
      else if x = '"' then .ok (done, .here, c)
      else if x = '\\' then
        if !rest.isEmpty && atBreak rest then .ok (done, .escapedBreak, (c.skip 1).skipBreak)
        else match escape? rest with
          | some (y, n) => quotedRun single fuel (y :: done) (c.skip (n + 1))
          | none => .error .escape
      else quotedRun single fuel (x :: done) (c.skip 1)

/-- Reads a quoted scalar behind its opening quote; `text` is what has been read, last first. -/
def quotedFrom (single : Bool) : Nat → List Char → Cursor → Except Problem (List Char × Cursor)
  | 0, _, _ => .error .unclosedQuote
  | fuel + 1, text, c =>
    if c.atDocumentMark || c.rest.isEmpty then .error .unclosedQuote
    else do
      let (text, stop, c) ← quotedRun single (c.rest.length + 1) text c
      if startsWithAny [if single then '\'' else '"'] c.rest then return (text.reverse, c.skip 1)
      else
        let gap : Gap := match stop with
          | .here => .inline []
          | .escapedBreak => .broken [] []
        let (gap, c) ← gap.read 0 c.rest.length c
        quotedFrom single fuel (gap.fold.reverse ++ text) c

/-- Reads a quoted scalar from its opening quote on. -/
def readQuoted (single : Bool) (c : Cursor) : Except Problem (String × Cursor) := do
  let (text, c) ← quotedFrom single (c.rest.length + 1) [] (c.skip 1)
  return (String.ofList text, c)

/-! ### Block scalars -/

/-- What becomes of the line breaks at the end of a block scalar. -/
inductive Chomping
  | strip
  | clip
  | keep
  deriving DecidableEq, Repr

/-- Reads a chomping indicator. -/
def chomping? : List Char → Option Chomping
  | '+' :: _ => some .keep
  | '-' :: _ => some .strip
  | _ => none

/-- Reads an indentation indicator. -/
def increment? : List Char → Except Problem (Option Nat)
  | x :: _ =>
    if x = '0' then .error .indentation
    else if x.isDigit then .ok (some (x.toNat - 48))
    else .ok none
  | [] => .ok none

/-- Reads the indicators of a block scalar, in either order. -/
def blockIndicators (c : Cursor) : Except Problem (Chomping × Option Nat × Cursor) := do
  match chomping? c.rest with
  | some chomping =>
    let c := c.skip 1
    match ← increment? c.rest with
    | some n => return (chomping, some n, c.skip 1)
    | none => return (chomping, none, c)
  | none =>
    match ← increment? c.rest with
    | some n =>
      let c := c.skip 1
      match chomping? c.rest with
      | some chomping => return (chomping, some n, c.skip 1)
      | none => return (.clip, some n, c)
    | none => return (.clip, none, c)

/-- Reads the indentation of lines and the empty lines between them. `indent` is 0 as long as it
is not known; `widest` is the largest column seen. -/
def blockBreaks (indent : Nat) :
    Nat → Nat → List Char → Cursor → Except Problem (Nat × List Char × Cursor)
  | 0, widest, breaks, c => .ok (widest, breaks, c)
  | fuel + 1, widest, breaks, c =>
    let spaces := (c.rest.takeWhile (· = ' ')).length
    let c := c.skip (if indent = 0 then spaces else min spaces (indent - c.column))
    let widest := max widest c.column
    if (indent = 0 || c.column < indent) && startsWithAny ['\t'] c.rest then .error .tab
    else
      match c.readBreak with
      | ([], _) => .ok (widest, breaks, c)
      | (text, c) => blockBreaks indent fuel widest (breaks ++ text) c

/-- Reads the lines of a block scalar. `leading` is the line break before the current line,
`trailing` the empty lines after it, and `blank` says that the line before starts with a blank. -/
def blockLines (folded : Bool) (indent : Nat) :
    Nat → List Char → List Char → List Char → Bool → Cursor →
      Except Problem (List Char × List Char × List Char × Cursor)
  | 0, text, leading, trailing, _, c => .ok (text, leading, trailing, c)
  | fuel + 1, text, leading, trailing, blank, c =>
    if c.column ≠ indent || c.rest.isEmpty then .ok (text, leading, trailing, c)
    else do
      let startsBlank := match c.rest with
        | x :: _ => isSpaceOrTab x
        | [] => false
      let joint :=
        if folded && leading = ['\n'] && !blank && !startsBlank then
          if trailing.isEmpty then [' '] else trailing
        else leading ++ trailing
      let (line, c) := c.spanWhile (!isBreak ·)
      let (leading, c) := c.readBreak
      let (_, trailing, c) ← blockBreaks indent (c.rest.length + 1) 0 [] c
      blockLines folded indent fuel (text ++ joint ++ line) leading trailing startsBlank c

/-- Reads a block scalar from its indicator on, within a block that is indented to the column
`parent`, or `-1` outside all blocks. -/
def readBlock (folded : Bool) (parent : Int) (c : Cursor) : Except Problem (String × Cursor) := do
  let (chomping, increment, c) ← blockIndicators (c.skip 1)
  let c := (c.skipWhile isSpaceOrTab).skipComment
  if !atBreak c.rest then throw .blockHeader
  let c := c.skipBreak
  let given := match increment with
    | some n => (max parent 0).toNat + n
    | none => 0
  let (widest, trailing, c) ← blockBreaks given (c.rest.length + 1) 0 [] c
  let indent := if given = 0 then max (max widest (parent + 1).toNat) 1 else given
  let (text, leading, trailing, c) ←
    blockLines folded indent (c.rest.length + 1) [] [] trailing false c
  let ending := match chomping with
    | .strip => []
    | .clip => leading
    | .keep => leading ++ trailing
  return (String.ofList (text ++ ending), c)

end Redaction.Yaml
