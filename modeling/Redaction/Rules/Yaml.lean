import Redaction.Rules.Spec
import Redaction.Text.Utf8
import Redaction.Yaml.Node

/-!
# Rules in YAML

A configuration is a mapping with the field `rules`, and a rule is a mapping of which every field
may be missing. Where a list or a mapping is asked for, nothing at all is an empty one. Unknown
fields are passed over; a known one may come once.
-/

namespace Redaction.Yaml

/-- A document with its nodes by the number of their anchor. -/
structure Document where
  root : Node
  anchored : List (Nat × Node)
  /-- How often aliases may be followed in all. -/
  limit : Nat

namespace Document

/-- Each alias may be followed about a hundred times for every part of the document. -/
def ofRoot (root : Node) : Document := ⟨root, root.anchored.reverse, root.parts * 100⟩

/-- Reads a document, counting how often an alias is followed. -/
abbrev Reader := ReaderT Document (StateT Nat (Except Problem))

/-- The node that an alias stands for, or the node itself. -/
def resolve : Node → Reader Node
  | .alias number => do
    let count := (← get) + 1
    if (← read).limit < count then throw .repetition
    set count
    match (← read).anchored.lookup number with
    | some n => return n
    | none => throw .unknownAlias
  | n => return n

/-- The text of a scalar in any style. -/
def text (n : Node) : Reader String := do
  match ← resolve n with
  | .scalar _ s _ => return s
  | _ => throw .shape

/-- The plain spellings of nothing. -/
def isNull (s : String) : Bool := ["~", "null", "Null", "NULL"].contains s

def nullTag : List UInt8 := "tag:yaml.org,2002:null".toList.flatMap String.utf8EncodeChar

def boolTag : List UInt8 := "tag:yaml.org,2002:bool".toList.flatMap String.utf8EncodeChar

def intTag : List UInt8 := "tag:yaml.org,2002:int".toList.flatMap String.utf8EncodeChar

/-- The node, or `none` if it is a plain spelling of nothing. A tag other than that of null makes
every scalar something. -/
def optional (n : Node) : Reader (Option Node) := do
  let n ← resolve n
  match n with
  | .scalar marks s .plain =>
    match marks.tag? with
    | none => return if s.isEmpty || isNull s then none else some n
    | some tag =>
      if tag ≠ nullTag then return some n
      else if isNull s then return none
      else throw .shape
  | _ => return some n

def optionalText (n : Node) : Reader (Option String) := do
  match ← optional n with
  | some n => return some (← text n)
  | none => return none

/-- A scalar that may be read as something else than a text: a plain one, or a literal one with
this tag. -/
def typedScalar (tag : List UInt8) (n : Node) : Reader String := do
  match ← resolve n with
  | .scalar _ s .plain => return s
  | .scalar marks s .literal => if marks.tag? = some tag then return s else throw .shape
  | _ => throw .shape

def truthValue (n : Node) : Reader Bool := do
  let s ← typedScalar boolTag n
  if ["true", "True", "TRUE"].contains s then return true
  else if ["false", "False", "FALSE"].contains s then return false
  else throw .shape

/-- The number that digits of a base denote, if it fits 64 bits. -/
def natural? (base : Nat) (digits : List Char) : Option Nat := do
  if digits.isEmpty then none
  else
    let n ← digits.foldlM (fun n c => do
      let d ← Text.hexValue? c
      if d < base then some (n * base + d) else none) 0
    if n < Nat.pow 2 64 then some n else none

/-- Reads a natural number in base 10, or behind a sign for it in base 16, 8 or 2. A plus may
stand before it; in base 10 no zero may stand before other digits. -/
def readNatural? (s : List Char) : Option Nat :=
  let s := match s with
    | '+' :: s => s
    | s => s
  match s with
  | '0' :: 'x' :: digits => natural? 16 digits
  | '0' :: 'o' :: digits => natural? 8 digits
  | '0' :: 'b' :: digits => natural? 2 digits
  | ['0'] => some 0
  | '0' :: _ => none
  | digits => natural? 10 digits

def number (n : Node) : Reader Nat := do
  match readNatural? (← typedScalar intTag n).toList with
  | some k => return k
  | none => throw .shape

/-- The items of a list. -/
def items (n : Node) : Reader (List Node) := do
  match ← resolve n with
  | .sequence _ ns => return ns
  | .scalar _ s .plain => if s.isEmpty then return [] else throw .shape
  | _ => throw .shape

/-- The entries of a mapping. -/
def entries (n : Node) : Reader (List (Node × Node)) := do
  match ← resolve n with
  | .mapping _ es => return es
  | .scalar _ s .plain => if s.isEmpty then return [] else throw .shape
  | _ => throw .shape

/-- The values of the known fields of a mapping. -/
def fields (known : List String) (n : Node) : Reader (List (String × Node)) := do
  (← entries n).foldlM (fun found (k, v) => do
    let name ← text k
    if !known.contains name then return found
    else if found.any (·.1 = name) then throw .shape
    else return (name, v) :: found) []

/-- Reads a field that may be missing. -/
def field {α : Type} (fs : List (String × Node)) (name : String) (missing : α)
    (read : Node → Reader α) : Reader α :=
  match fs.lookup name with
  | some n => read n
  | none => return missing

/-- The bytes of a tag without its mark, if it is an application's own. -/
def ownTag? : List UInt8 → Option (List Char)
  | [] => none
  | b :: rest =>
    if b = 0x21 then Text.Utf8.decode? (if rest.isEmpty then [b] else rest) else none

/-- An action is its name in any style, or its name as a tag with nothing behind it. -/
def action (n : Node) : Reader Action := do
  let n ← resolve n
  let marks := match n with
    | .scalar marks _ _ | .sequence marks _ | .mapping marks _ => marks
    | .alias _ => .none
  let name ← match marks.tag?.bind ownTag? with
    | some name =>
      match n with
      | .scalar _ s .plain => if s.isEmpty || isNull s then pure name else throw .shape
      | _ => throw .shape
    | none => pure (← text n).toList
  match Action.ofText? (String.ofList name) with
  | some a => return a
  | none => throw .shape

def rule (n : Node) : Reader RuleSpec := do
  let fs ← fields ["name", "description", "path", "action", "keys", "all_keys"] n
  return {
    name? := ← field fs "name" none optionalText
    description? := ← field fs "description" none optionalText
    path := ← field fs "path" "" text
    action := ← field fs "action" .scrub action
    keys := ← field fs "keys" [] fun n => do (← items n).mapM text
    allKeys := ← field fs "all_keys" false truthValue }

def limitNumber (n : Node) : Reader (Option Nat) := do
  match ← optional n with
  | some n => return some (← number n)
  | none => return none

def settings (n : Node) : Reader (Option Nat) := do
  field (← fields ["max_targets_per_rule"] n) "max_targets_per_rule" none limitNumber

def config (n : Node) : Reader Config := do
  let fs ← fields ["rules", "settings"] n
  let some rules := fs.lookup "rules" | throw .shape
  return ⟨← (← items rules).mapM rule, ← field fs "settings" none settings⟩

end Document

end Redaction.Yaml

namespace Redaction

/-- The configuration that a YAML text denotes. -/
def Config.ofYaml (s : String) : Except Yaml.Problem Config := do
  let doc := Yaml.Document.ofRoot (← Yaml.parse s)
  let (config, _) ← ((Yaml.Document.config doc.root).run doc).run 0
  return config

end Redaction
