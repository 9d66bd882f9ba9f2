import Redaction.Text.Pattern.Escape

/-!
# Sets in brackets

A set has characters, ranges, named classes and other sets as its members; doubled signs between two
lists of members stand for their intersection and difference. Classes of Unicode and letters of
either case have a form, but no meaning here.
-/

namespace Redaction.Text.Pattern.Reader

/-- The set with the other case of its letters and without what it excludes. Either case is a matter
of Unicode, and so is what lies outside ASCII. -/
def closeSet (negated : Bool) (s : CharSet) (span : Span) : Reader CharSet := do
  let o := (← get).options
  let s ← if !o.eitherCase || s.isEmpty then pure s
    else if o.unicode then do
      note .unicodeCase span
      pure s
    else pure s.bothCases
  let s := if negated then CharSet.complement s else s
  if !o.unicode && !s.isAscii then note .notUtf8 span
  return s

/-- The set of a class of Unicode. -/
def shortSet (ascii : CharSet) (negated : Bool) (span : Span) : Reader CharSet := do
  let s := if negated then CharSet.complement ascii else ascii
  if (← get).options.unicode then note .unicodeClass span
  else if !s.isAscii then note .notUtf8 span
  return s

def propertySet (kind : FaultKind) (span : Span) : Reader CharSet := do
  note (if (← get).options.unicode then kind else .notUnicode) span
  return []

/-- The set of one character. -/
def charSet (c : Char) (byte : Bool) (span : Span) : Reader CharSet := do
  if !(← get).options.unicode && 0x7F < c.toNat then
    note (if byte then .notUtf8 else .notUnicode) span
  return CharSet.single c

/-- A set in brackets as far as it has been read, with its span. -/
structure Gathered where
  set : CharSet
  span? : Option Span

namespace Gathered

def add (g : Gathered) (s : CharSet) (span : Span) : Gathered :=
  ⟨g.set.union s, some ⟨(g.span?.map Span.start).getD span.start, span.stop⟩⟩

end Gathered

/-- Two sets of which a third one is made. -/
inductive SetOperator
  | inter
  | diff
  | symmDiff
  deriving DecidableEq, Repr

/-- The signs of the operators are doubled characters. -/
def SetOperator.ofChar? : Char → Option SetOperator
  | '&' => some .inter
  | '-' => some .diff
  | '~' => some .symmDiff
  | _ => none

def SetOperator.apply : SetOperator → CharSet → CharSet → CharSet
  | inter => CharSet.inter
  | diff => CharSet.diff
  | symmDiff => CharSet.symmDiff

/-- Joins what stands before an operator and what stands behind it. -/
def combine (left? : Option (SetOperator × Gathered)) (right : Gathered) : Reader Gathered := do
  match left? with
  | none => return right
  | some (o, left) => do
    let spanOf (g : Gathered) : Reader Span := do return g.span?.getD (← point)
    let rightSet ← fold right.set (← spanOf right)
    let leftSet ← fold left.set (← spanOf left)
    let span := ⟨(← spanOf left).start, (← spanOf right).stop⟩
    return ⟨o.apply leftSet rightSet, some span⟩
where
  fold (s : CharSet) (span : Span) : Reader CharSet := do
    let o := (← get).options
    if !o.eitherCase || s.isEmpty then return s
    else if o.unicode then
      note .unicodeCase span
      return s
    else return s.bothCases

/-- Reads a named class of ASCII, if there is one. -/
def namedSet? : Reader (Option (CharSet × Span)) := do
  let before ← get
  let found? ← attempt
  match found? with
  | some (negated, s) =>
    let span ← since before.place
    return some (← closeSet negated s span, span)
  | none =>
    set before
    return none
where
  attempt : Reader (Option (Bool × CharSet)) := do
    if !(← accept ['[', ':']) then return none
    let negated ← accept ['^']
    let name := (← get).rest.takeWhile (· != ':')
    if !(← accept (name ++ [':', ']'])) then return none
    return (CharSet.named.lookup (String.ofList name)).map (negated, ·)

/-- The character behind the next one. Blanks, and the sign of one comment, may stand between. -/
def peekBehind : Reader (Option Char) := do
  let r ← get
  let rest := r.rest.drop 1
  if !r.options.spaced then return rest.head?
  else
    let behind := match rest.dropWhile isBlank with
      | '#' :: rest => rest.dropWhile isBlank
      | rest => rest
    return behind.head?.or rest.head?

/-- Reads one character of a set, or what stands for some. -/
def setPiece : Reader (Piece × Span) := do
  match ← peek with
  | some '\\' => escape
  | some c =>
    let span ← charSpan
    step
    return (.char c false, span)
  | none => fail .classUnclosed (← point)

/-- Reads one member of a set, or two with a hyphen between them. -/
def setMember (opened : Span) : Reader (CharSet × Span) := do
  let (first, firstSpan) ← setPiece
  skipBlanks
  if (← peek).isNone then fail .classUnclosed opened
  let next ← peekBehind
  if (← peek) ≠ some '-' || next = some ']' || next = some '-' then
    let s ← match first with
      | .char c byte => charSet c byte firstSpan
      | .short ascii negated => shortSet ascii negated firstSpan
      | .property kind => propertySet kind firstSpan
      | _ => fail .classEscape firstSpan
    return (s, firstSpan)
  advance
  if (← peek).isNone then fail .classUnclosed opened
  let (second, secondSpan) ← setPiece
  let span : Span := ⟨firstSpan.start, secondSpan.stop⟩
  match first, second with
  | .char a firstByte, .char b secondByte =>
    if b < a then fail .classRange span
    let _ ← charSet a firstByte firstSpan
    let _ ← charSet b secondByte secondSpan
    return (CharSet.between a b, span)
  | .char _ _, _ => fail .classRangeEnd secondSpan
  | _, _ => fail .classRangeEnd firstSpan

/-- Reads hyphens that stand for themselves at the start of a set. -/
def hyphens (start : Place) : Nat → Gathered → Reader Gathered
  | 0, g => return g
  | fuel + 1, g => do
    if (← peek) ≠ some '-' then return g
    let g := g.add (CharSet.single '-') (← charSpan)
    advance
    if (← peek).isNone then fail .classUnclosed ⟨start, start⟩
    hyphens start fuel g

/-- Reads the start of a set: its bracket, the sign of a complement, hyphens, and a bracket that
cannot close it because it would be empty. -/
def openSet : Reader (Bool × Gathered × Span) := do
  let start ← here
  advanceOr .classUnclosed start
  let negated := (← peek) == some '^'
  if negated then advanceOr .classUnclosed start
  let g ← hyphens start ((← get).rest.length + 1) ⟨[], none⟩
  if g.span?.isNone && (← peek) = some ']' then
    let g := g.add (CharSet.single ']') (← charSpan)
    advanceOr .classUnclosed start
    return (negated, g, ← since start)
  else return (negated, g, ← since start)

mutual

/-- Reads a set in brackets. -/
def bracketed : Nat → Reader (CharSet × Span)
  | 0 => do fail .classUnclosed (← point)
  | fuel + 1 => do
    let start ← here
    let (negated, g, opened) ← openSet
    let g ← members fuel opened g none
    step
    let span ← since start
    return (← closeSet negated g.set span, span)

/-- Reads the members of a set up to its closing bracket. -/
def members : Nat → Span → Gathered → Option (SetOperator × Gathered) → Reader Gathered
  | 0, opened, _, _ => fail .classUnclosed opened
  | fuel + 1, opened, g, left? => do
    skipBlanks
    match (← get).rest with
    | [] => fail .classUnclosed opened
    | ']' :: _ => combine left? g
    | '[' :: _ =>
      let (s, span) ← match ← namedSet? with
        | some named => pure named
        | none => bracketed fuel
      members fuel opened (g.add s span) left?
    | c :: rest =>
      match if rest.head? = some c then SetOperator.ofChar? c else none with
      | some o =>
        let left ← combine left? g
        step
        step
        members fuel opened ⟨[], none⟩ (some (o, left))
      | none =>
        let (s, span) ← setMember opened
        members fuel opened (g.add s span) left?

end

end Redaction.Text.Pattern.Reader
