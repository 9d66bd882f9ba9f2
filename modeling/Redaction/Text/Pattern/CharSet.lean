import Redaction.Text.Ranges

/-!
# Sets of characters

A set of characters is a list of ranges of code points, in order and apart from one another. All
operations keep it so, because all of them are made of the complement and the intersection.
-/

namespace Redaction.Text

abbrev CharSet := List (Nat × Nat)

namespace CharSet

def has (s : CharSet) (c : Char) : Bool := inRanges s c.toNat

/-- The characters from `lo` to `hi`. -/
def between (lo hi : Char) : CharSet := [(lo.toNat, hi.toNat)]

def single (c : Char) : CharSet := between c c

/-- The last code point. -/
def last : Nat := 0x10FFFF

def everything : CharSet := [(0, last)]

/-- What is missing from `lo` on. -/
def gapsFrom (lo : Nat) : CharSet → CharSet
  | [] => if lo ≤ last then [(lo, last)] else []
  | (a, b) :: s => (if lo < a then [(lo, a - 1)] else []) ++ gapsFrom (b + 1) s

def complement (s : CharSet) : CharSet := gapsFrom 0 s

def inter (s t : CharSet) : CharSet :=
  s.flatMap fun (a, b) => t.filterMap fun (c, d) =>
    if max a c ≤ min b d then some (max a c, min b d) else none

def union (s t : CharSet) : CharSet := complement (inter (complement s) (complement t))

def diff (s t : CharSet) : CharSet := inter s (complement t)

def symmDiff (s t : CharSet) : CharSet := union (diff s t) (diff t s)

def isAscii (s : CharSet) : Bool := s.all fun (_, b) => b < 0x80

/-- The set with both cases of its ASCII letters. -/
def bothCases (s : CharSet) : CharSet :=
  let lower := (inter s (between 'A' 'Z')).map fun (a, b) => (a + 32, b + 32)
  let upper := (inter s (between 'a' 'z')).map fun (a, b) => (a - 32, b - 32)
  union s (union lower upper)

/-! ### ASCII classes -/

def digit : CharSet := between '0' '9'

def space : CharSet := [(0x09, 0x0D), (0x20, 0x20)]

def word : CharSet := [(0x30, 0x39), (0x41, 0x5A), (0x5F, 0x5F), (0x61, 0x7A)]

/-- The classes that have a name. -/
def named : List (String × CharSet) := [
  ("alnum", [(0x30, 0x39), (0x41, 0x5A), (0x61, 0x7A)]),
  ("alpha", [(0x41, 0x5A), (0x61, 0x7A)]),
  ("ascii", [(0x00, 0x7F)]),
  ("blank", [(0x09, 0x09), (0x20, 0x20)]),
  ("cntrl", [(0x00, 0x1F), (0x7F, 0x7F)]),
  ("digit", digit),
  ("graph", [(0x21, 0x7E)]),
  ("lower", between 'a' 'z'),
  ("print", [(0x20, 0x7E)]),
  ("punct", [(0x21, 0x2F), (0x3A, 0x40), (0x5B, 0x60), (0x7B, 0x7E)]),
  ("space", space),
  ("upper", between 'A' 'Z'),
  ("word", word),
  ("xdigit", [(0x30, 0x39), (0x41, 0x46), (0x61, 0x66)])]

end CharSet

end Redaction.Text
