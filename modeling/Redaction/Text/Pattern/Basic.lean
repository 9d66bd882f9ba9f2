import Redaction.Text.Pattern.CharSet

/-!
# Patterns

A pattern says what a part of a text looks like. `Pattern.ends` gives the places of a text where a
part can end that starts at one of some given places, so a pattern occurs in a text if it has an end
for a part that may start anywhere.
-/

namespace Redaction.Text

/-! ### Conditions on a place -/

/-- A condition on the characters before and behind a place. Words are made of ASCII letters, digits
and underscores; in the second way of counting, lines may end with CR, LF or both. -/
inductive Assertion
  | textStart
  | textEnd
  | lineStart (crlf : Bool)
  | lineEnd (crlf : Bool)
  | wordBoundary
  | noWordBoundary
  | wordStart
  | wordEnd
  /-- No character of a word stands before the place. -/
  | wordStartHalf
  /-- No character of a word stands behind the place. -/
  | wordEndHalf
  deriving DecidableEq, Repr

/-- The character of a word. -/
def isInWord (c? : Option Char) : Bool := c?.any (CharSet.has CharSet.word)

def Assertion.holds (a : Assertion) (before after : Option Char) : Bool :=
  match a with
  | textStart => before.isNone
  | textEnd => after.isNone
  | lineStart false => before.isNone || before = some '\n'
  | lineStart true =>
    before.isNone || before = some '\n' || (before = some '\r' && after != some '\n')
  | lineEnd false => after.isNone || after = some '\n'
  | lineEnd true =>
    after.isNone || after = some '\r' || (after = some '\n' && before != some '\r')
  | wordBoundary => isInWord before != isInWord after
  | noWordBoundary => isInWord before == isInWord after
  | wordStart => !isInWord before && isInWord after
  | wordEnd => isInWord before && !isInWord after
  | wordStartHalf => !isInWord before
  | wordEndHalf => !isInWord after

/-! ### Patterns -/

inductive Pattern
  | empty
  | oneOf (s : CharSet)
  | look (a : Assertion)
  | seq (p q : Pattern)
  | either (p q : Pattern)
  /-- At least and at most so many times; without a second number any number of times. -/
  | times (p : Pattern) (least : Nat) (most? : Option Nat)
  deriving DecidableEq, Repr

namespace Pattern

/-- One pattern behind the other. -/
def ofList : List Pattern → Pattern
  | [] => empty
  | [p] => p
  | p :: ps => seq p (ofList ps)

/-! ### Where a pattern ends -/

/-- Says of every place of a text, its end included, whether it belongs to a set. -/
abbrev Places := List Bool

/-- The characters before and behind every place. -/
def around (text : List Char) : List (Option Char × Option Char) :=
  (none :: text.map some).zip (text.map some ++ [none])

def Places.union (ps qs : Places) : Places := List.zipWith (· || ·) ps qs

/-- What a step reaches in exactly so many turns. -/
def after (step : Places → Places) : Nat → Places → Places
  | 0, ps => ps
  | n + 1, ps => after step n (step ps)

/-- What a step reaches in at most so many turns. -/
def within (step : Places → Places) : Nat → Places → Places
  | 0, ps => ps
  | n + 1, ps =>
    let more := ps.union (step ps)
    if more = ps then ps else within step n more

/-- The places where the pattern can end if it starts at one of the given places. In a text, more
turns than there are places reach nothing new. -/
def ends (text : List Char) : Pattern → Places → Places
  | empty, ps => ps
  | oneOf s, ps => false :: List.zipWith (fun here c => here && s.has c) ps text
  | look a, ps => List.zipWith (fun here (before, after) => here && a.holds before after) ps
      (around text)
  | seq p q, ps => ends text q (ends text p ps)
  | either p q, ps => (ends text p ps).union (ends text q ps)
  | times p least most?, ps =>
    let enough := text.length + 1
    let more := match most? with
      | some most => min (most - least) enough
      | none => enough
    within (ends text p) more (after (ends text p) (min least enough) ps)

/-- Some part of the text matches the pattern. -/
def occursIn (p : Pattern) (text : List Char) : Bool :=
  (ends text p (List.replicate (text.length + 1) true)).contains true

/-! ### Size -/

/-- Some character belongs to what the pattern matches. -/
def isSolid : Pattern → Bool
  | empty | look _ => false
  | oneOf _ => true
  | seq p q | either p q => p.isSolid || q.isSolid
  | times p _ most? => p.isSolid && most? != some 0

/-- The number of bytes in which the characters of the set can differ. -/
def setSize (s : CharSet) : Nat :=
  match s with
  | [(a, b)] => if a = b then (Char.ofNat a).utf8Size else if s.isAscii then 1 else 8
  | _ => if s.isAscii then 1 else 8

/-- About the number of steps that a machine for the pattern has. -/
def size : Pattern → Nat
  | empty => 0
  | oneOf s => setSize s
  | look _ => 1
  | seq p q => p.size + q.size
  | either p q => p.size + q.size + 1
  | times p least most? =>
    if !p.isSolid then p.size + 1
    else match most? with
      | some most => most * p.size + (most - least)
      | none => max least 1 * p.size + 1

/-- The greatest number of steps. -/
def maxSize : Nat := 10485760 / 32

end Pattern

end Redaction.Text
