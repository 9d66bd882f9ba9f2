import Redaction.Text.Pieces

/-!
# Key paths

A key path names places in an event. A segment is a key of an object, or the wildcard `[]`, which
stands for every element of an array. The last segment is always read as a key, even the wildcard.
-/

namespace Redaction

/-- The segment that stands for every element of an array. -/
def wildcard : String := "[]"

/-- One segment of a path. The key spelled like the wildcard is the wildcard. -/
inductive Segment
  | key (name : String) (ne : name ≠ wildcard)
  | eachElement
  deriving DecidableEq, Repr

namespace Segment

/-- The segment with this spelling. -/
def ofText (s : String) : Segment := if h : s = wildcard then eachElement else key s h

/-- The spelling of a segment. -/
def text : Segment → String
  | key name _ => name
  | eachElement => wildcard

theorem text_ofText (s : String) : (ofText s).text = s := by
  unfold ofText
  split
  · next h => exact h.symm
  · rfl

theorem ofText_text (s : Segment) : ofText s.text = s := by
  cases s with
  | key name ne => simp [ofText, text, ne]
  | eachElement => rfl

end Segment

structure KeyPath where
  segments : List Segment
  deriving DecidableEq, Repr, Inhabited

namespace KeyPath

/-- The path with these segments; a dot in a segment is part of it. -/
def ofTexts (texts : List String) : KeyPath := ⟨texts.map Segment.ofText⟩

/-- Cuts a dotted path at every dot. The empty text is the path without segments. -/
def parse (dotted : String) : KeyPath :=
  if dotted.isEmpty then ⟨[]⟩
  else ofTexts ((Text.pieces '.' dotted.toList).map String.ofList)

/-- The segments joined by dots. -/
def display (path : KeyPath) : String :=
  String.ofList (List.intercalate ['.'] (path.segments.map (·.text.toList)))

/-- The segments that lead to the containers of the final key. -/
def walk (path : KeyPath) : List Segment := path.segments.dropLast

/-- The key that the containers must hold; the path without segments has none. -/
def finalKey? (path : KeyPath) : Option String := path.segments.getLast?.map Segment.text

end KeyPath

end Redaction
