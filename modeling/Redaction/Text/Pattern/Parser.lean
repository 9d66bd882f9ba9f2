import Redaction.Text.Pattern.Bracket

/-!
# The text of a pattern

Branches stand between bars, and a branch is a row of items: characters, escapes, sets in brackets,
conditions and groups, each of which may be repeated. Options hold up to the end of their group.
-/

namespace Redaction.Text.Pattern

namespace Reader

/-! ### Items -/

/-- The pattern of a character outside of brackets. -/
def charPattern (c : Char) (byte : Bool) (span : Span) : Reader Pattern := do
  let o := (← get).options
  if o.unicode then
    if o.eitherCase then note .unicodeCase span
    return .oneOf (CharSet.single c)
  else
    if byte && 0x7F < c.toNat then note .notUtf8 span
    let s := CharSet.single c
    return .oneOf (if o.eitherCase && c.isAlpha then s.bothCases else s)

/-- The pattern of a dot. -/
def anyPattern (span : Span) : Reader Pattern := do
  let o := (← get).options
  if !o.unicode then note .notUtf8 span
  let breaks := if o.dotAll then [] else if o.crlf then ['\n', '\r'] else ['\n']
  return .oneOf (breaks.foldl (fun s c => s.diff (CharSet.single c)) CharSet.everything)

def piecePattern (piece : Piece) (span : Span) : Reader Pattern := do
  let o := (← get).options
  match piece with
  | .char c byte => charPattern c byte span
  | .any => anyPattern span
  | .lineStart => return .look (if o.manyLines then .lineStart o.crlf else .textStart)
  | .lineEnd => return .look (if o.manyLines then .lineEnd o.crlf else .textEnd)
  | .textStart => return .look .textStart
  | .textEnd => return .look .textEnd
  | .words a =>
    if o.unicode then modify fun r => { r with unicodeWords := true }
    return .look a
  | .short ascii negated => return .oneOf (← shortSet ascii negated span)
  | .property kind => return .oneOf (← propertySet kind span)

/-- Reads a character or an escape. -/
def single : Reader Pattern := do
  match ← peek with
  | some '\\' =>
    let (piece, span) ← escape
    piecePattern piece span
  | some c =>
    let span ← charSpan
    step
    piecePattern (match c with
      | '.' => .any
      | '^' => .lineStart
      | '$' => .lineEnd
      | _ => .char c false) span
  | none => return .empty

/-- Passes over characters of a kind. -/
def skipWhile (p : Char → Bool) : Reader Unit := do
  ((← get).rest.takeWhile p).forM fun _ => step

/-- Reads a number of repetitions. Whether it may be missing is seen later. -/
def count : Reader (Except Fault Nat) := do
  skipWhile isBlank
  let start ← here
  let digits ← spanWhile Char.isDigit
  let span ← since start
  skipWhile isBlank
  skipBlanks
  let n := digits.foldl (fun n d => n * 10 + (d.toNat - 48)) 0
  if digits.isEmpty then return .error ⟨.countMissing, span, none⟩
  else if Nat.pow 2 32 ≤ n then return .error ⟨.number, span, none⟩
  else return .ok n

/-- Reads the numbers of repetitions in braces. -/
def counts (start : Place) : Reader (Nat × Option Nat) := do
  advanceOr .countUnclosed start
  let least ← count
  match ← peek with
  | none => fail .countUnclosed (← since start)
  | some ',' =>
    advanceOr .countUnclosed start
    if (← peek) = some '\x7d' then return (← least, none)
    else
      let n ← least
      let most ← count
      return (n, some (← most))
  | some _ =>
    let n ← least
    return (n, some n)

/-- Reads repetitions in braces, behind which a question mark changes nothing. -/
def counted (p : Pattern) : Reader Pattern := do
  let start ← here
  let (least, most?) ← counts start
  if (← peek) ≠ some '\x7d' then fail .countUnclosed (← since start)
  advance
  if (← peek) = some '?' then step
  if most?.any (· < least) then fail .countRange (← since start)
  return .times p least most?

/-- Reads the sign of a repetition. -/
def repeated (p : Pattern) (sign : Char) : Reader Pattern := do
  if sign = '\x7b' then counted p
  else
    step
    if (← peek) = some '?' then step
    return match sign with
      | '*' => .times p 0 none
      | '+' => .times p 1 none
      | _ => .times p 0 (some 1)

/-! ### Groups -/

/-- A character of the name of a group. Outside ASCII all characters count as letters. -/
def isNameChar (first : Bool) (c : Char) : Bool :=
  c = '_' || c.isAlpha || 0x7F < c.toNat ||
    (!first && (c.isDigit || c = '.' || c = '[' || c = ']'))

/-- Reads the name of a group and its closing angle bracket. -/
def groupName : Reader Unit := do
  let start ← here
  let name := match (← get).rest with
    | [] => []
    | c :: cs => if isNameChar true c then c :: cs.takeWhile (isNameChar false) else []
  name.forM fun _ => step
  match ← peek with
  | none => fail .nameUnclosed (← point)
  | some '>' =>
    let span ← since start
    step
    if name.isEmpty then fail .nameEmpty span
    match (← get).names.lookup name with
    | some other => throw ⟨.nameRepeated, span, some other⟩
    | none => modify fun r => { r with names := (name, span) :: r.names }
  | some _ => fail .nameChar (← charSpan)

/-- Reads the letters of options and a hyphen, up to the colon or parenthesis behind them. -/
def optionLetters : Nat → List (Char × Span) → Reader (List (Char × Span))
  | 0, done => return done.reverse
  | fuel + 1, done => do
    match ← peek with
    | none => fail .flagUnfinished (← point)
    | some c =>
      let span ← charSpan
      if c = ':' || c = ')' then
        match done with
        | ('-', span) :: _ => fail .flagNegationLast span
        | _ => return done.reverse
      else if c != '-' && (Options.usual.put? true c).isNone then fail .flagUnknown span
      else match done.lookup c with
        | some other =>
          throw ⟨if c = '-' then .flagNegationRepeated else .flagRepeated, span, some other⟩
        | none =>
          step
          optionLetters fuel ((c, span) :: done)

/-- How a group starts. -/
inductive Opening
  | group
  /-- A group that starts with options of its own, or only options without a group. -/
  | options (o : Options) (hasGroup : Bool)

/-- Reads the start of a group, the parenthesis of which stands at `outer`. -/
def opening (outer : Span) : Reader Opening := do
  step
  skipBlanks
  for look in ["?=", "?!", "?<=", "?<!"] do
    if ← accept look.toList then fail .lookAround (← since outer.start)
  let inner ← point
  let named ← accept ['?', 'P', '<']
  if named || (← accept ['?', '<']) then
    groupName
    return .group
  else if ← accept ['?'] then
    if (← peek).isNone then fail .groupUnclosed outer
    let letters ← optionLetters ((← get).rest.length + 1) []
    let hasGroup := (← peek) == some ':'
    step
    if letters.isEmpty && !hasGroup then fail .nothingToRepeat inner
    return .options ((← get).options.putAll (letters.map (·.1))) hasGroup
  else return .group

/-- One item behind the other; options are no item of the pattern. -/
def row (done : List (Option Pattern)) : Pattern := .ofList (done.reverse.filterMap id)

mutual

/-- Reads branches up to the end of the group or of the pattern. The items of the branch are given
from the last one on. -/
def branches : Nat → List (Option Pattern) → Reader Pattern
  | 0, done => return row done
  | fuel + 1, done => do
    skipBlanks
    match ← peek with
    | none | some ')' => return row done
    | some '|' =>
      step
      return .either (row done) (← branches fuel [])
    | some '(' => branches fuel ((← group fuel) :: done)
    | some '[' =>
      let (s, _) ← bracketed ((← get).rest.length + 1)
      branches fuel (some (.oneOf s) :: done)
    | some c =>
      if c = '*' || c = '+' || c = '?' || c = '\x7b' then
        match done with
        | some p :: done => branches fuel (some (← repeated p c) :: done)
        | _ => fail .nothingToRepeat (← point)
      else branches fuel (some (← single) :: done)

/-- Reads a group, or options for the rest of the group around them. -/
def group : Nat → Reader (Option Pattern)
  | 0 => return none
  | fuel + 1 => do
    let outer ← charSpan
    let outside := (← get).options
    match ← opening outer with
    | .options o false =>
      modify fun r => { r with options := o }
      return none
    | start =>
      if let .options o _ := start then modify fun r => { r with options := o }
      let p ← branches fuel []
      if (← peek).isNone then fail .groupUnclosed outer
      modify fun r => { r with options := outside }
      step
      return some p

end

/-- Reads a whole pattern of so many characters. -/
def whole (length : Nat) : Reader Pattern := do
  let p ← branches (2 * length + 2) []
  if (← peek).isSome then fail .groupUnopened (← charSpan)
  return p

end Reader

/-- Why a text is no pattern. -/
inductive Problem
  | fault (f : Fault)
  /-- There is a condition on words of Unicode. -/
  | unicodeWords
  | tooLarge
  deriving DecidableEq, Repr

def Problem.message (text : List Char) : Problem → String
  | fault f => f.message text
  | unicodeWords => "error building NFA"
  | tooLarge => "Compiled regex exceeds size limit of 10485760 bytes."

/-- The pattern that a text denotes. -/
def parse (text : List Char) : Except Problem Pattern :=
  match (Reader.whole text.length).run ⟨text, .start, .usual, [], none, false⟩ with
  | .error f => .error (.fault f)
  | .ok (p, r) =>
    match r.later? with
    | some f => .error (.fault f)
    | none =>
      if r.unicodeWords then .error .unicodeWords
      else if maxSize < p.size then .error .tooLarge
      else .ok p

end Redaction.Text.Pattern
