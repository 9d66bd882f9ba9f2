import Redaction.Yaml.Scalar

/-!
# From a YAML text to its tokens

Blocks are found by the indentation: a deeper column opens a collection, a lesser one closes all
deeper collections. Whether a scalar is a key is known only at the colon behind it, so the place of
each possible key is remembered, for every flow collection around it, until its line ends.
-/

namespace Redaction.Yaml

open Redaction.Text (hexValue?)

/-! ### Names, tags and directives -/

/-- Reads the name of an anchor or alias behind its indicator. -/
def readAnchor (c : Cursor) : Except Problem (String × Cursor) :=
  let (name, c) := (c.skip 1).spanWhile isWordChar
  let ends := atBlank c.rest || startsWithAny ['?', ':', ',', ']', '\x7d', '%', '@', '\x60'] c.rest
  if name.isEmpty || !ends then .error .anchorName else .ok (String.ofList name, c)

/-- The length of the byte sequence that a first byte announces. -/
def sequenceLength? (b : Nat) : Option Nat :=
  if b < 0x80 then some 1
  else if 0xC0 ≤ b && b < 0xE0 then some 2
  else if 0xE0 ≤ b && b < 0xF0 then some 3
  else if 0xF0 ≤ b && b < 0xF8 then some 4
  else none

/-- Reads an escaped byte of a tag. -/
def escapedByte? (cs : List Char) : Option Nat :=
  match cs with
  | '%' :: a :: b :: _ => do return (← hexValue? a) * 16 + (← hexValue? b)
  | _ => none

/-- Reads `n` escaped bytes that each continue a sequence. -/
def escapedTail : Nat → Cursor → Except Problem (List UInt8 × Cursor)
  | 0, c => .ok ([], c)
  | n + 1, c =>
    match escapedByte? c.rest with
    | some b =>
      if 0x80 ≤ b && b < 0xC0 then do
        let (bytes, c) ← escapedTail n (c.skip 3)
        return (UInt8.ofNat b :: bytes, c)
      else .error .tagText
    | none => .error .tagText

/-- Reads the escaped bytes of one character. -/
def escapedSequence (c : Cursor) : Except Problem (List UInt8 × Cursor) :=
  match escapedByte? c.rest with
  | some b =>
    match sequenceLength? b with
    | some n => do
      let (bytes, c) ← escapedTail (n - 1) (c.skip 3)
      return (UInt8.ofNat b :: bytes, c)
    | none => .error .tagText
  | none => .error .tagText

/-- A character of a tag; three more may stand in a tag between angle brackets. -/
def isTagChar (verbatim : Bool) (c : Char) : Bool :=
  isWordChar c || ";/?:@&=+$.%!~*'()".toList.contains c ||
    (verbatim && (c = ',' || c = '[' || c = ']'))

/-- Reads the bytes of a tag as far as they go. -/
def tagBytes (verbatim : Bool) : Nat → Cursor → Except Problem (List UInt8 × Cursor)
  | 0, c => .ok ([], c)
  | fuel + 1, c =>
    match c.rest with
    | [] => .ok ([], c)
    | x :: _ =>
      if !isTagChar verbatim x then .ok ([], c)
      else do
        let (bytes, c) ← if x = '%' then escapedSequence c
          else pure (String.utf8EncodeChar x, c.skip 1)
        let (more, c) ← tagBytes verbatim fuel c
        return (bytes ++ more, c)

/-- Reads the handle of a tag: `!`, or a word between two `!`. What starts like a handle but does
not end like one is given back as it is. -/
def readHandle (c : Cursor) : Except Problem (List Char × Cursor) :=
  if !startsWithAny ['!'] c.rest then .error .tagText
  else
    let (word, c) := (c.skip 1).spanWhile isWordChar
    if startsWithAny ['!'] c.rest then .ok ('!' :: word ++ ['!'], c.skip 1)
    else .ok ('!' :: word, c)

/-- Reads a tag. -/
def readTag (inFlow : Bool) (c : Cursor) : Except Problem (Token × Cursor) := do
  let bytes (cs : List Char) : List UInt8 := cs.flatMap String.utf8EncodeChar
  let (tag, c) ← match c.rest with
    | _ :: '<' :: _ => do
      let (uri, c) ← tagBytes true (c.rest.length + 1) (c.skip 2)
      if uri.isEmpty || !startsWithAny ['>'] c.rest then throw .tagText
      pure (Token.tag "" uri, c.skip 1)
    | _ => do
      let (handle, c) ← readHandle c
      let (suffix, c) ← tagBytes false (c.rest.length + 1) c
      if 2 ≤ handle.length && handle.getLast? = some '!' then
        if suffix.isEmpty then throw .tagText
        pure (Token.tag (String.ofList handle) suffix, c)
      else
        let suffix := bytes (handle.drop 1) ++ suffix
        if suffix.isEmpty then pure (Token.tag "" (bytes ['!']), c)
        else pure (Token.tag "!" suffix, c)
  if atBlank c.rest || (inFlow && startsWithAny [','] c.rest) then return (tag, c)
  else throw .tagText

/-- Reads a part of a version number. -/
def versionNumber (c : Cursor) : Except Problem (Nat × Cursor) :=
  let (digits, c) := c.spanWhile Char.isDigit
  if digits.isEmpty || 9 < digits.length then .error .directive
  else .ok (digits.foldl (fun n d => n * 10 + (d.toNat - 48)) 0, c)

/-- Reads a directive and the line it stands on. -/
def readDirective (c : Cursor) : Except Problem (Token × Cursor) := do
  let (name, c) := (c.skip 1).spanWhile isWordChar
  if name.isEmpty || !atBlank c.rest then throw .directive
  let c := c.skipWhile isSpaceOrTab
  let (directive, c) ← match String.ofList name with
    | "YAML" => do
      let (major, c) ← versionNumber c
      if !startsWithAny ['.'] c.rest then throw .directive
      let (minor, c) ← versionNumber (c.skip 1)
      pure (Token.versionDirective major minor, c)
    | "TAG" => do
      let (handle, c) ← readHandle c
      if handle.length ≠ 1 && handle.getLast? ≠ some '!' then throw .directive
      match c.rest with
      | x :: _ => if !isSpaceOrTab x then throw .directive
      | [] => throw .directive
      let c := c.skipWhile isSpaceOrTab
      let (uri, c) ← tagBytes true (c.rest.length + 1) c
      if uri.isEmpty || !atBlank c.rest then throw .directive
      pure (Token.tagDirective (String.ofList handle) uri, c)
    | _ => throw .directive
  let c := (c.skipWhile isSpaceOrTab).skipComment
  if !atBreak c.rest then throw .directive
  return (directive, c.skipBreak)

/-! ### The state of reading -/

/-- A place where a key may start. -/
structure SimpleKey where
  /-- The number of tokens before it. -/
  token : Nat
  /-- A block has its entries at this column, so what starts here has to be a key. -/
  required : Bool
  index : Nat
  line : Nat
  column : Nat
  deriving Repr

structure Lexer where
  cursor : Cursor
  tokens : Array Token
  /-- The column of the innermost block, `-1` outside all blocks. -/
  indent : Int
  /-- The columns of the blocks around it. -/
  outer : List Int
  /-- The place of a possible key in the innermost flow collection, or in the block around all. -/
  simpleKey? : Option SimpleKey
  /-- The same for the collections around it; there are as many as there are flow collections. -/
  flow : List (Option SimpleKey)
  /-- A key may start here. -/
  keyAllowed : Bool

namespace Lexer

def start (text : List Char) : Lexer :=
  ⟨.start text, #[], -1, [], none, [], true⟩

def inFlow (l : Lexer) : Bool := !l.flow.isEmpty

def push (l : Lexer) (t : Token) : Lexer := { l with tokens := l.tokens.push t }

/-- Puts a token before the ones from number `n` on. -/
def insert (l : Lexer) (n : Nat) (t : Token) : Lexer :=
  { l with tokens := l.tokens.insertIdxIfInBounds n t }

/-- Goes on behind the `n` characters of an indicator. -/
def skip (l : Lexer) (n : Nat) : Lexer := { l with cursor := l.cursor.skip n }

/-- The place is on an earlier line, or too far back. -/
def isStale (l : Lexer) (k : SimpleKey) : Bool :=
  k.line < l.cursor.line || k.index + 1024 < l.cursor.index

/-- Forgets a place that is stale. -/
def refresh (l : Lexer) : Option SimpleKey → Except Problem (Option SimpleKey)
  | none => .ok none
  | some k =>
    if !l.isStale k then .ok (some k) else if k.required then .error .simpleKey else .ok none

/-- Forgets all places that are stale. -/
def refreshAll (l : Lexer) : Except Problem Lexer := do
  return { l with simpleKey? := ← l.refresh l.simpleKey?, flow := ← l.flow.mapM l.refresh }

/-- Forgets the place of a possible key. -/
def dropKey (l : Lexer) : Except Problem Lexer :=
  match l.simpleKey? with
  | some k => if k.required then .error .simpleKey else .ok { l with simpleKey? := none }
  | none => .ok l

/-- Remembers that a key may start here. -/
def saveKey (l : Lexer) : Except Problem Lexer :=
  if !l.keyAllowed then .ok l
  else do
    let l ← l.dropKey
    let c := l.cursor
    let required := !l.inFlow && l.indent == (c.column : Int)
    return { l with simpleKey? := some ⟨l.tokens.size, required, c.index, c.line, c.column⟩ }

/-- Opens a block at a deeper column. The token that opens it is put in by `add`. -/
def openBlock (l : Lexer) (column : Nat) (add : Lexer → Lexer) : Lexer :=
  if l.inFlow || (column : Int) ≤ l.indent then l
  else add { l with indent := column, outer := l.indent :: l.outer }

/-- Closes blocks from the innermost one on as long as they are deeper than `column`. -/
def closeBlocksFrom (column : Int) : Int → List Int → Array Token → Int × List Int × Array Token
  | indent, [], tokens => (indent, [], tokens)
  | indent, o :: outer, tokens =>
    if column < indent then closeBlocksFrom column o outer (tokens.push .blockEnd)
    else (indent, o :: outer, tokens)

def closeBlocks (l : Lexer) (column : Int) : Lexer :=
  if l.inFlow then l
  else
    let (indent, outer, tokens) := closeBlocksFrom column l.indent l.outer l.tokens
    { l with indent, outer, tokens }

/-! ### Reading a token -/

/-- Skips blanks, comments and line breaks, and a byte order mark at the start of a line. A tab is no
indentation where a key may start. -/
def skipBlanks (inFlow : Bool) : Nat → Bool → Cursor → Bool × Cursor
  | 0, keyAllowed, c => (keyAllowed, c)
  | fuel + 1, keyAllowed, c =>
    let c := if c.column = 0 && startsWithAny ['\uFEFF'] c.rest then c.skip 1 else c
    let tabs := inFlow || !keyAllowed
    let c := (c.skipWhile fun x => x = ' ' || (tabs && x = '\t')).skipComment
    match c.readBreak with
    | ([], _) => (keyAllowed, c)
    | (_, c) => skipBlanks inFlow fuel (keyAllowed || !inFlow) c

/-- Ends all blocks and forgets the place of a possible key, before what stands between
documents. -/
def endBlocks (l : Lexer) : Except Problem Lexer := do
  return { ← (l.closeBlocks (-1)).dropKey with keyAllowed := false }

def readDocumentMark (l : Lexer) (t : Token) : Except Problem Lexer := do
  return ((← l.endBlocks).push t).skip 3

def openFlow (l : Lexer) (t : Token) : Except Problem Lexer := do
  let l ← l.saveKey
  let l := { l with flow := l.simpleKey? :: l.flow, simpleKey? := none, keyAllowed := true }
  return (l.push t).skip 1

def closeFlow (l : Lexer) (t : Token) : Except Problem Lexer := do
  let l ← l.dropKey
  let l := match l.flow with
    | k :: flow => { l with simpleKey? := k, flow }
    | [] => l
  return ({ l with keyAllowed := false }.push t).skip 1

def readFlowEntry (l : Lexer) : Except Problem Lexer := do
  return ({ ← l.dropKey with keyAllowed := true }.push .flowEntry).skip 1

def readBlockEntry (l : Lexer) : Except Problem Lexer := do
  if !l.inFlow && !l.keyAllowed then throw .misplacedEntry
  let l ← (l.openBlock l.cursor.column (·.push .blockSequenceStart)).dropKey
  return ({ l with keyAllowed := true }.push .blockEntry).skip 1

def readKey (l : Lexer) : Except Problem Lexer := do
  if !l.inFlow && !l.keyAllowed then throw .misplacedKey
  let l ← (l.openBlock l.cursor.column (·.push .blockMappingStart)).dropKey
  return ({ l with keyAllowed := !l.inFlow }.push .key).skip 1

def readValue (l : Lexer) : Except Problem Lexer :=
  match l.simpleKey? with
  | some k =>
    let l := (l.insert k.token .key).openBlock k.column (·.insert k.token .blockMappingStart)
    .ok (({ l with simpleKey? := none, keyAllowed := false }.push .value).skip 1)
  | none => do
    if !l.inFlow && !l.keyAllowed then throw .misplacedValue
    let l := l.openBlock l.cursor.column (·.push .blockMappingStart)
    return ({ l with keyAllowed := !l.inFlow }.push .value).skip 1

/-- Reads a token that may be a key, after which none may start. -/
def readNode (l : Lexer) (read : Cursor → Except Problem (Token × Cursor)) :
    Except Problem Lexer := do
  let l ← l.saveKey
  let (t, cursor) ← read l.cursor
  return { l with cursor, keyAllowed := false, tokens := l.tokens.push t }

def readPlainNode (l : Lexer) : Except Problem Lexer := do
  let l ← l.saveKey
  let (text, broken, cursor) ← readPlain l.inFlow (l.indent + 1).toNat l.cursor
  return { l with cursor, keyAllowed := broken, tokens := l.tokens.push (.scalar text .plain) }

def readBlockNode (l : Lexer) (folded : Bool) : Except Problem Lexer := do
  let l ← l.dropKey
  let (text, cursor) ← readBlock folded l.indent l.cursor
  let style : ScalarStyle := if folded then .folded else .literal
  return { l with cursor, keyAllowed := true, tokens := l.tokens.push (.scalar text style) }

def readQuotedNode (l : Lexer) (single : Bool) : Except Problem Lexer :=
  l.readNode fun c => do
    let (text, c) ← readQuoted single c
    return (.scalar text (if single then .singleQuoted else .doubleQuoted), c)

/-- A plain scalar may start with these two characters, given whether it stands in a flow
collection. -/
def startsPlain (inFlow : Bool) (c : Char) (rest : List Char) : Bool :=
  if c = '-' then !startsWithAny [' ', '\t'] rest
  else if c = '?' || c = ':' then !inFlow && !atBlank rest
  else !isSpaceOrTab c && !isBreak c && !",[]\x7b\x7d#&*!|>'\"%@\x60".toList.contains c

/-- Reads one token from its first character `c` on, which has `rest` behind it. -/
def readToken (l : Lexer) (c : Char) (rest : List Char) : Except Problem Lexer :=
  if l.cursor.column = 0 && c = '%' then do
    let l ← l.endBlocks
    let (t, cursor) ← readDirective l.cursor
    return { l with cursor, tokens := l.tokens.push t }
  else if l.cursor.atDocumentMark then
    l.readDocumentMark (if c = '-' then .documentStart else .documentEnd)
  else match c with
    | '[' => l.openFlow .flowSequenceStart
    | '\x7b' => l.openFlow .flowMappingStart
    | ']' => l.closeFlow .flowSequenceEnd
    | '\x7d' => l.closeFlow .flowMappingEnd
    | ',' => l.readFlowEntry
    | '*' => l.readNode fun c => do
      let (name, c) ← readAnchor c
      return (.alias name, c)
    | '&' => l.readNode fun c => do
      let (name, c) ← readAnchor c
      return (.anchor name, c)
    | '!' => l.readNode (readTag l.inFlow)
    | '\'' => l.readQuotedNode true
    | '"' => l.readQuotedNode false
    | _ =>
      if c = '-' && atBlank rest then l.readBlockEntry
      else if c = '?' && (l.inFlow || atBlank rest) then l.readKey
      else if c = ':' && (l.inFlow || atBlank rest) then l.readValue
      else if c = '|' && !l.inFlow then l.readBlockNode false
      else if c = '>' && !l.inFlow then l.readBlockNode true
      else if startsPlain l.inFlow c rest then l.readPlainNode
      else .error .noToken

/-- Reads tokens to the end of the text. -/
def run : Nat → Lexer → Except Problem (Array Token)
  | 0, l => .ok l.tokens
  | fuel + 1, l => do
    let (keyAllowed, cursor) := skipBlanks l.inFlow (l.cursor.rest.length + 1) l.keyAllowed l.cursor
    let l ← { l with keyAllowed, cursor }.refreshAll
    let l := l.closeBlocks cursor.column
    match cursor.rest with
    | [] =>
      let l := { l with cursor := ⟨[], cursor.index, cursor.line + 1, 0⟩ }
      return ((← l.endBlocks).push .streamEnd).tokens
    | c :: rest => run fuel (← l.readToken c rest)

end Lexer

/-- The tokens of a text. -/
def tokens (text : String) : Except Problem (List Token) := do
  let cs := text.toList
  if !cs.all isAllowed then throw .control
  return (← (Lexer.start cs).run (cs.length + 1)).toList

end Redaction.Yaml
