/-!
# Places in a YAML text

The classes of characters that YAML tells apart, and a cursor that knows the line and the column of
what is still to be read.
-/

namespace Redaction.Yaml

/-! ### Character classes -/

/-- A character that may stand in a text at all. -/
def isAllowed (c : Char) : Bool :=
  let n := c.toNat
  n == 0x09 || n == 0x0A || n == 0x0D || (0x20 ≤ n && n ≤ 0x7E) || n == 0x85 ||
    (0xA0 ≤ n && n ≤ 0xFFFD) || 0x10000 ≤ n

/-- A line break: CR, LF, NEL, LS or PS. -/
def isBreak (c : Char) : Bool :=
  c = '\r' || c = '\n' || c = '\u0085' || c = '\u2028' || c = '\u2029'

def isSpaceOrTab (c : Char) : Bool := c = ' ' || c = '\t'

/-- A character of the names of anchors, tag handles and directives. -/
def isWordChar (c : Char) : Bool := c.isAlphanum || c = '_' || c = '-'

/-- The text starts with a line break, or is at its end. -/
def atBreak : List Char → Bool
  | [] => true
  | c :: _ => isBreak c

/-- The text starts with a space, a tab or a line break, or is at its end. -/
def atBlank : List Char → Bool
  | [] => true
  | c :: _ => isSpaceOrTab c || isBreak c

/-- The text starts with one of the characters. -/
def startsWithAny (chars : List Char) : List Char → Bool
  | [] => false
  | c :: _ => chars.contains c

/-! ### Cursor -/

structure Cursor where
  rest : List Char
  /-- The number of bytes before the cursor. -/
  index : Nat
  line : Nat
  /-- The number of characters before the cursor on its line. -/
  column : Nat
  deriving Repr, Inhabited

namespace Cursor

def start (text : List Char) : Cursor := ⟨text, 0, 0, 0⟩

/-- The number of bytes that the next `n` characters take. -/
def bytes (c : Cursor) (n : Nat) : Nat :=
  (c.rest.take n).foldl (fun n c => n + c.utf8Size) 0

/-- Goes on by `n` characters of the same line. -/
def skip (c : Cursor) (n : Nat) : Cursor :=
  { c with rest := c.rest.drop n, index := c.index + c.bytes n, column := c.column + n }

/-- The characters up to the first one of another kind, and the cursor behind them. -/
def spanWhile (c : Cursor) (p : Char → Bool) : List Char × Cursor :=
  let taken := c.rest.takeWhile p
  (taken, c.skip taken.length)

def skipWhile (c : Cursor) (p : Char → Bool) : Cursor := (c.spanWhile p).2

/-- Reads a line break, if there is one. CR, LF, both together and NEL count as a line feed. -/
def readBreak (c : Cursor) : List Char × Cursor :=
  let past (n : Nat) (text : Char) : List Char × Cursor :=
    ([text], ⟨c.rest.drop n, c.index + c.bytes n, c.line + 1, 0⟩)
  match c.rest with
  | '\r' :: '\n' :: _ => past 2 '\n'
  | x :: _ =>
    if x = '\r' ∨ x = '\n' ∨ x = '\u0085' then past 1 '\n'
    else if x = '\u2028' ∨ x = '\u2029' then past 1 x
    else ([], c)
  | [] => ([], c)

/-- Goes on behind a line break, if there is one. -/
def skipBreak (c : Cursor) : Cursor := c.readBreak.2

/-- Goes on behind a comment, if there is one, to the end of its line. -/
def skipComment (c : Cursor) : Cursor :=
  if startsWithAny ['#'] c.rest then c.skipWhile (!isBreak ·) else c

/-- Three hyphens or three dots and a blank at the start of a line. -/
def atDocumentMark (c : Cursor) : Bool :=
  c.column == 0 &&
    match c.rest with
    | '-' :: '-' :: '-' :: rest => atBlank rest
    | '.' :: '.' :: '.' :: rest => atBlank rest
    | _ => false

end Cursor

end Redaction.Yaml
