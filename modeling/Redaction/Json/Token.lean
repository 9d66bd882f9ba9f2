import Redaction.Json.NumberText
import Redaction.Text.Hex

/-!
# Tokens of a JSON text

`Token.next?` takes the first token off a text. White space is the space, the tab, the line feed
and the carriage return; strings hold no raw control characters and no lone surrogates.
-/

open Redaction.Text (hexValue?)

namespace Redaction.Json

inductive Token
  | openArray
  | closeArray
  | openObject
  | closeObject
  | comma
  | colon
  | string (text : String)
  /-- Null, a truth value or a number. -/
  | scalar (value : Json)
  deriving Repr, Inhabited

namespace Token

def isSpace (c : Char) : Bool := c = ' ' || c = '\t' || c = '\n' || c = '\r'

/-- Reads four hexadecimal digits. -/
def hexUnit? : List Char → Option (Nat × List Char)
  | a :: b :: c :: d :: cs => do
    let w ← hexValue? a
    let x ← hexValue? b
    let y ← hexValue? c
    let z ← hexValue? d
    return (((w * 16 + x) * 16 + y) * 16 + z, cs)
  | _ => none

/-- Reads the code point of a `\u` escape, which may take a second escape for its lower half. -/
def codePoint? (cs : List Char) : Option (Char × List Char) := do
  let (hi, cs) ← hexUnit? cs
  if 0xDC00 ≤ hi && hi ≤ 0xDFFF then none
  else if 0xD800 ≤ hi && hi ≤ 0xDBFF then
    match cs with
    | '\\' :: 'u' :: cs => do
      let (lo, cs) ← hexUnit? cs
      if 0xDC00 ≤ lo && lo ≤ 0xDFFF then
        some (Char.ofNat (0x10000 + (hi - 0xD800) * 0x400 + (lo - 0xDC00)), cs)
      else none
    | _ => none
  else some (Char.ofNat hi, cs)

/-- Reads what follows the backslash of an escape. -/
def escape? : List Char → Option (Char × List Char)
  | [] => none
  | c :: cs =>
    match c with
    | '"' => some ('"', cs)
    | '\\' => some ('\\', cs)
    | '/' => some ('/', cs)
    | 'b' => some ('\x08', cs)
    | 'f' => some ('\x0c', cs)
    | 'n' => some ('\n', cs)
    | 'r' => some ('\r', cs)
    | 't' => some ('\t', cs)
    | 'u' => codePoint? cs
    | _ => none

theorem hexUnit?_length {cs rest : List Char} {n : Nat} (h : hexUnit? cs = some (n, rest)) :
    rest.length < cs.length := by
  unfold hexUnit? at h
  split at h
  · simp only [Option.bind_eq_bind, Option.bind_eq_some_iff, Option.pure_def, Option.some.injEq,
      Prod.mk.injEq] at h
    obtain ⟨_, _, _, _, _, _, _, _, _, rfl⟩ := h
    simp only [List.length_cons]
    omega
  · simp at h

theorem codePoint?_length {cs rest : List Char} {c : Char} (h : codePoint? cs = some (c, rest)) :
    rest.length < cs.length := by
  unfold codePoint? at h
  simp only [Option.bind_eq_bind, Option.bind_eq_some_iff] at h
  obtain ⟨⟨hi, cs'⟩, h1, h⟩ := h
  have hlt := hexUnit?_length h1
  simp only at h
  split at h
  · simp at h
  · split at h
    · split at h
      · simp only [Option.bind_eq_some_iff] at h
        obtain ⟨⟨lo, cs''⟩, h2, h⟩ := h
        have hlt2 := hexUnit?_length h2
        simp only at h
        split at h
        · simp only [Option.some.injEq, Prod.mk.injEq] at h
          obtain ⟨_, rfl⟩ := h
          simp only [List.length_cons] at hlt
          omega
        · simp at h
      · simp at h
    · simp only [Option.some.injEq, Prod.mk.injEq] at h
      obtain ⟨_, rfl⟩ := h
      exact hlt

theorem escape?_length {cs rest : List Char} {c : Char} (h : escape? cs = some (c, rest)) :
    rest.length < cs.length := by
  unfold escape? at h
  split at h
  · simp at h
  · split at h
    case h_9 => exact Nat.lt_succ_of_lt (codePoint?_length h)
    case h_10 => simp at h
    all_goals
      simp only [Option.some.injEq, Prod.mk.injEq] at h
      obtain ⟨_, rfl⟩ := h
      simp

/-- Reads a string up to its closing quote; `done` holds the characters read, last first. -/
def stringBody? (done : List Char) : List Char → Option (String × List Char)
  | [] => none
  | c :: cs =>
    if c = '"' then some (String.ofList done.reverse, cs)
    else if c = '\\' then
      match h : escape? cs with
      | some (c, rest) =>
        have : rest.length < cs.length := escape?_length h
        stringBody? (c :: done) rest
      | none => none
    else if c.toNat < 0x20 then none
    else stringBody? (c :: done) cs
termination_by cs => cs.length

/-- A character that numbers are made of. -/
def isNumeric (c : Char) : Bool :=
  c.isDigit || c = '-' || c = '+' || c = '.' || c = 'e' || c = 'E'

/-- Takes a word off a text. -/
def word? (word : String) (value : Json) (cs : List Char) : Option (Token × List Char) :=
  if word.toList.isPrefixOf cs then some (scalar value, cs.drop word.length) else none

/-- The token at the start of a text that starts with no white space, and the rest. -/
def next? : List Char → Option (Token × List Char)
  | [] => none
  | c :: cs =>
    match c with
    | '[' => some (openArray, cs)
    | ']' => some (closeArray, cs)
    | '\x7b' => some (openObject, cs)
    | '\x7d' => some (closeObject, cs)
    | ',' => some (comma, cs)
    | ':' => some (colon, cs)
    | '"' => (stringBody? [] cs).map fun (s, rest) => (string s, rest)
    | 't' => word? "true" (.bool true) (c :: cs)
    | 'f' => word? "false" (.bool false) (c :: cs)
    | 'n' => word? "null" .null (c :: cs)
    | _ =>
      if c.isDigit || c = '-' then
        let rest := cs.dropWhile isNumeric
        (Number.read? (c :: cs.takeWhile isNumeric)).map fun n => (scalar (.number n), rest)
      else none

theorem stringBody?_length {done cs rest : List Char} {s : String}
    (h : stringBody? done cs = some (s, rest)) : rest.length < cs.length := by
  fun_induction stringBody? done cs with
  | case1 => simp at h
  | case2 done cs =>
    simp only [Option.some.injEq, Prod.mk.injEq] at h
    obtain ⟨_, rfl⟩ := h
    simp
  | case3 done cs _ c rest' he hlt ih =>
    have := ih h
    simp only [List.length_cons]
    omega
  | case4 => simp at h
  | case5 => simp at h
  | case6 done c cs _ _ _ ih => exact Nat.lt_succ_of_lt (ih h)

theorem next?_length {cs rest : List Char} {t : Token} (h : next? cs = some (t, rest)) :
    rest.length < cs.length := by
  have word : ∀ {w : String} {v : Json} {cs : List Char}, 0 < w.length → cs ≠ [] →
      word? w v cs = some (t, rest) → rest.length < cs.length := by
    intro w v cs hw hcs h
    unfold word? at h
    split at h
    · simp only [Option.some.injEq, Prod.mk.injEq] at h
      obtain ⟨_, rfl⟩ := h
      have : 0 < cs.length := List.length_pos_iff.2 hcs
      simp only [List.length_drop]
      omega
    · simp at h
  unfold next? at h
  split at h
  · simp at h
  · rename_i c cs
    split at h
    case h_7 =>
      simp only [Option.map_eq_some_iff, Prod.mk.injEq, Prod.exists] at h
      obtain ⟨s, r, hs, _, rfl⟩ := h
      exact Nat.lt_succ_of_lt (stringBody?_length hs)
    case h_8 => exact word (by decide) (by simp) h
    case h_9 => exact word (by decide) (by simp) h
    case h_10 => exact word (by decide) (by simp) h
    case h_11 =>
      split at h
      · simp only [Option.map_eq_some_iff, Prod.mk.injEq] at h
        obtain ⟨n, _, _, rfl⟩ := h
        exact Nat.lt_succ_of_le (List.dropWhile_sublist _).length_le
      · simp at h
    all_goals
      simp only [Option.some.injEq, Prod.mk.injEq] at h
      obtain ⟨_, rfl⟩ := h
      simp

end Token

end Redaction.Json
