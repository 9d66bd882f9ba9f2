import Redaction.Yaml.Lexer

/-!
# YAML documents

A document is a tree of nodes. An alias stands for the node with its number; numbers are given to
the anchors of a document in order, a number being the count of different names before it. If two
anchors have the same number, it stands for the later one.
-/

namespace Redaction.Yaml

/-- What a node bears besides its content. -/
structure Marks where
  anchor? : Option Nat
  tag? : Option (List UInt8)
  deriving Repr, Inhabited

def Marks.none : Marks := ⟨.none, .none⟩

inductive Node
  | scalar (marks : Marks) (text : String) (style : ScalarStyle)
  | sequence (marks : Marks) (items : List Node)
  | mapping (marks : Marks) (entries : List (Node × Node))
  | alias (number : Nat)
  deriving Repr, Inhabited

namespace Node

/-- What stands where nothing is written. -/
def empty (marks : Marks) : Node := .scalar marks "" .plain

mutual

/-- The nodes with anchors, in document order. -/
def anchored : Node → List (Nat × Node)
  | .scalar marks text style => (marks.anchor?.map (·, .scalar marks text style)).toList
  | .sequence marks items =>
    (marks.anchor?.map (·, .sequence marks items)).toList ++ anchoredItems items
  | .mapping marks entries =>
    (marks.anchor?.map (·, .mapping marks entries)).toList ++ anchoredEntries entries
  | .alias _ => []

def anchoredItems : List Node → List (Nat × Node)
  | [] => []
  | n :: ns => anchored n ++ anchoredItems ns

def anchoredEntries : List (Node × Node) → List (Nat × Node)
  | [] => []
  | (k, v) :: es => anchored k ++ anchored v ++ anchoredEntries es

end

mutual

/-- How many scalars, aliases, and starts and ends of collections there are. -/
def parts : Node → Nat
  | .scalar _ _ _ => 1
  | .sequence _ items => partsItems items + 2
  | .mapping _ entries => partsEntries entries + 2
  | .alias _ => 1

def partsItems : List Node → Nat
  | [] => 0
  | n :: ns => parts n + partsItems ns

def partsEntries : List (Node × Node) → Nat
  | [] => 0
  | (k, v) :: es => parts k + parts v + partsEntries es

end

end Node

/-! ### From tokens to nodes -/

/-- The tokens still to be read, the tag handles of the document, and the anchors so far. -/
structure Parsing where
  tokens : List Token
  handles : List (String × List UInt8)
  anchors : List (String × Nat)

abbrev Parser := StateT Parsing (Except Problem)

namespace Parser

/-- The next token. -/
def peek : Parser Token := do return (← get).tokens.headD .streamEnd

/-- Goes on behind the next token. -/
def advance : Parser Unit := modify fun p => { p with tokens := p.tokens.drop 1 }

/-- Gives an anchor its number. -/
def declare (name : String) : Parser Nat := do
  let p ← get
  let number := p.anchors.length
  let others := p.anchors.filter (·.1 ≠ name)
  set { p with anchors := (name, number) :: others }
  return number

/-- The number that an anchor has now. -/
def number (name : String) : Parser Nat := do
  match (← get).anchors.lookup name with
  | some n => return n
  | none => throw .unknownAlias

/-- The full tag that a handle and a suffix stand for. -/
def fullTag (handle : String) (suffix : List UInt8) : Parser (List UInt8) := do
  if handle.isEmpty then return suffix
  match (← get).handles.lookup handle with
  | some uri => return uri ++ suffix
  | none => throw .tagHandle

/-- Reads an anchor and a tag, in either order, if they are there. -/
def marks : Parser Marks := do
  let anchor? : Parser (Option String) := do
    match ← peek with
    | .anchor name => advance; return some name
    | _ => return none
  let tag? : Parser (Option (String × List UInt8)) := do
    match ← peek with
    | .tag handle suffix => advance; return some (handle, suffix)
    | _ => return none
  let before ← anchor?
  let tag ← tag?
  let name ← if before.isNone then anchor? else pure before
  let full ← match tag with
    | some (handle, suffix) => pure (some (← fullTag handle suffix))
    | none => pure none
  let number ← match name with
    | some name => pure (some (← declare name))
    | none => pure none
  return ⟨number, full⟩

mutual

/-- Reads a node. Where `block` is false, only flow collections may stand; where `indentless` is
true, the entries of a block sequence may stand without being indented. -/
def node : Nat → Bool → Bool → Parser Node
  | 0, _, _ => throw .content
  | fuel + 1, block, indentless => do
    match ← peek with
    | .alias name => advance; return .alias (← number name)
    | _ =>
      let m ← marks
      match ← peek with
      | .blockEntry =>
        if indentless then return .sequence m (← indentlessEntries fuel) else noContent m
      | .scalar text style => advance; return .scalar m text style
      | .flowSequenceStart => advance; return .sequence m (← flowItems fuel true)
      | .flowMappingStart => advance; return .mapping m (← flowEntries fuel true)
      | .blockSequenceStart =>
        if block then advance; return .sequence m (← blockItems fuel) else noContent m
      | .blockMappingStart =>
        if block then advance; return .mapping m (← blockEntries fuel) else noContent m
      | _ => noContent m

/-- A node without content is empty if it bears an anchor or a tag. -/
def noContent (m : Marks) : Parser Node :=
  if m.anchor?.isSome || m.tag?.isSome then return .empty m else throw .content

/-- Reads a node, unless one of the tokens follows that may stand behind a missing one. -/
def nodeUnless : Nat → List Token → Bool → Bool → Parser Node
  | 0, _, _, _ => throw .content
  | fuel + 1, stops, block, indentless => do
    if stops.contains (← peek) then return .empty .none else node fuel block indentless

/-- Reads the rest of a block sequence. -/
def blockItems : Nat → Parser (List Node)
  | 0 => throw .content
  | fuel + 1 => do
    match ← peek with
    | .blockEntry =>
      advance
      let n ← nodeUnless fuel [.blockEntry, .blockEnd] true false
      return n :: (← blockItems fuel)
    | .blockEnd => advance; return []
    | _ => throw .entry

/-- Reads the rest of a block sequence that is not indented. -/
def indentlessEntries : Nat → Parser (List Node)
  | 0 => throw .content
  | fuel + 1 => do
    match ← peek with
    | .blockEntry =>
      advance
      let n ← nodeUnless fuel [.blockEntry, .key, .value, .blockEnd] true false
      return n :: (← indentlessEntries fuel)
    | _ => return []

/-- Reads the rest of a block mapping. -/
def blockEntries : Nat → Parser (List (Node × Node))
  | 0 => throw .content
  | fuel + 1 => do
    match ← peek with
    | .key =>
      advance
      let k ← nodeUnless fuel [.key, .value, .blockEnd] true true
      let v ← blockValue fuel
      return (k, v) :: (← blockEntries fuel)
    | .blockEnd => advance; return []
    | _ => throw .entry

/-- Reads the value of an entry of a block mapping. -/
def blockValue : Nat → Parser Node
  | 0 => throw .content
  | fuel + 1 => do
    match ← peek with
    | .value => advance; nodeUnless fuel [.key, .value, .blockEnd] true true
    | _ => return .empty .none

/-- Reads the rest of a flow sequence; `first` says that no item has been read yet. -/
def flowItems : Nat → Bool → Parser (List Node)
  | 0, _ => throw .content
  | fuel + 1, first => do
    match ← peek with
    | .flowSequenceEnd => advance; return []
    | t =>
      if !first then
        if t ≠ .flowEntry then throw .entry
        advance
      match ← peek with
      | .key =>
        advance
        let n ← flowPair fuel
        return n :: (← flowItems fuel false)
      | .flowSequenceEnd => advance; return []
      | _ =>
        let n ← node fuel false false
        return n :: (← flowItems fuel false)

/-- Reads a single pair in a flow sequence, a mapping of its own. If its key is missing, the token
behind it is passed over. -/
def flowPair : Nat → Parser Node
  | 0 => throw .content
  | fuel + 1 => do
    let k ← if [Token.value, .flowEntry, .flowSequenceEnd].contains (← peek) then do
        advance
        pure (Node.empty .none)
      else node fuel false false
    let v ← match ← peek with
      | .value => advance; nodeUnless fuel [.flowEntry, .flowSequenceEnd] false false
      | _ => pure (Node.empty .none)
    return .mapping .none [(k, v)]

/-- Reads the rest of a flow mapping; `first` says that no entry has been read yet. -/
def flowEntries : Nat → Bool → Parser (List (Node × Node))
  | 0, _ => throw .content
  | fuel + 1, first => do
    match ← peek with
    | .flowMappingEnd => advance; return []
    | t =>
      if !first then
        if t ≠ .flowEntry then throw .entry
        advance
      match ← peek with
      | .key =>
        advance
        let k ← nodeUnless fuel [.value, .flowEntry, .flowMappingEnd] false false
        let v ← match ← peek with
          | .value => advance; nodeUnless fuel [.flowEntry, .flowMappingEnd] false false
          | _ => pure (Node.empty .none)
        return (k, v) :: (← flowEntries fuel false)
      | .flowMappingEnd => advance; return []
      | _ =>
        let k ← node fuel false false
        return (k, .empty .none) :: (← flowEntries fuel false)

end

/-! ### Documents -/

/-- The tag handles that every document has. -/
def defaultHandles : List (String × List UInt8) := [
  ("!", "!".toList.flatMap String.utf8EncodeChar),
  ("!!", "tag:yaml.org,2002:".toList.flatMap String.utf8EncodeChar)]

/-- Reads the directives before a document. -/
def directives : Nat → Bool → List (String × List UInt8) → Parser Unit
  | 0, _, _ => throw .directive
  | fuel + 1, versioned, handles => do
    match ← peek with
    | .versionDirective major minor =>
      if versioned then throw .duplicateDirective
      if major ≠ 1 || (minor ≠ 1 && minor ≠ 2) then throw .documentVersion
      advance
      directives fuel true handles
    | .tagDirective handle uri =>
      if handles.any (·.1 = handle) then throw .duplicateDirective
      advance
      directives fuel versioned ((handle, uri) :: handles)
    | _ => modify fun p => { p with handles := handles ++ defaultHandles }

/-- Passes over marks of the end of a document. -/
def skipEnds : Nat → Parser Unit
  | 0 => return
  | fuel + 1 => do
    if (← peek) = .documentEnd then
      advance
      skipEnds fuel

/-- Tokens that cannot start the content of a document. -/
def isOutside : Token → Bool
  | .versionDirective _ _ | .tagDirective _ _ | .documentStart | .documentEnd | .streamEnd => true
  | _ => false

/-- Reads the only document of a text. -/
def document (fuel : Nat) : Parser Node := do
  let root ← match ← peek with
    | .streamEnd => pure (Node.empty .none)
    | .versionDirective _ _ | .tagDirective _ _ | .documentStart => do
      directives fuel false []
      if (← peek) ≠ .documentStart then throw .documentStart
      advance
      if isOutside (← peek) then pure (Node.empty .none) else node fuel true false
    | _ => do
      modify fun p => { p with handles := defaultHandles }
      node fuel true false
  skipEnds fuel
  if (← peek) ≠ .streamEnd then throw .secondDocument
  return root

end Parser

/-- The root of the only document of a text. -/
def parse (text : String) : Except Problem Node := do
  let ts ← tokens text
  let (root, _) ← (Parser.document (4 * ts.length + 8)).run ⟨ts, [], []⟩
  return root

end Redaction.Yaml
