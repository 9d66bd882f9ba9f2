import Redaction.Json.Basic
import Redaction.Path.Basic

/-!
# Positions

A position leads from a value to one of its parts, step by step. A path points at the positions
with as many steps as it has segments: a key faces that member, the wildcard faces any element,
and the last segment faces the member that is spelled like it. The path without segments points at
nothing.
-/

namespace Redaction

inductive Step
  | member (key : String)
  | element (index : Nat)
  deriving DecidableEq, Repr

abbrev Position := List Step

namespace Json

/-- The part of a value to which one step leads. -/
def child? : Json → Step → Option Json
  | object ms, .member key => Members.get? key ms
  | array items, .element index => items[index]?
  | _, _ => none

/-- The part of a value at a position. -/
def at? (root : Json) : Position → Option Json
  | [] => some root
  | step :: p => (root.child? step).bind fun v => at? v p

theorem at?_append (root : Json) (p q : Position) :
    root.at? (p ++ q) = (root.at? p).bind fun v => v.at? q := by
  induction p generalizing root with
  | nil => rfl
  | cons step p ih =>
    simp only [List.cons_append, at?]
    cases root.child? step with
    | none => rfl
    | some v => exact ih v

end Json

namespace Segment

/-- The segment faces this step of a position. -/
def faces : Segment → Step → Bool
  | key name _, .member k => name = k
  | eachElement, .element _ => true
  | _, _ => false

end Segment

namespace KeyPath

/-- The segments of a walk face the steps of a position one by one. -/
def follows : List Segment → Position → Bool
  | [], [] => true
  | s :: walk, step :: p => s.faces step && follows walk p
  | _, _ => false

/-- The path points at this position. -/
def pointsAt (path : KeyPath) (p : Position) : Bool :=
  match path.finalKey?, p.getLast? with
  | some key, some (.member k) => key = k && follows path.walk p.dropLast
  | _, _ => false

end KeyPath

end Redaction
