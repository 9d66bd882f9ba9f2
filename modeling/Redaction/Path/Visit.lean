import Redaction.Json.Basic
import Redaction.Path.Basic

/-!
# Visiting the targets of a path

A visitor may change each target and keep a state from one to the next. The first error it
reports ends the visit; what it left in that target stays.
-/

namespace Redaction

/-- What a visit of a part of an event leaves: the part, the visitor's state, and the error that
ended the visit. -/
structure Visited (α σ ε : Type) where
  value : α
  state : σ
  error : Option ε

/-- Changes the members of one target. -/
abbrev Visitor (σ ε : Type) := Members → σ → Visited Members σ ε

namespace Visitor

variable {σ ε : Type}

/-- Visits the items of an array in order, up to the first error. -/
def visitItems (visit : Json → σ → Visited Json σ ε) : List Json → σ → Visited (List Json) σ ε
  | [], s => ⟨[], s, none⟩
  | v :: vs, s =>
    match visit v s with
    | ⟨v, s, some e⟩ => ⟨v :: vs, s, some e⟩
    | ⟨v, s, none⟩ =>
      let r := visitItems visit vs s
      ⟨v :: r.value, r.state, r.error⟩

/-- Visits the objects at the end of a walk that hold `key`. -/
def visitWalk (visitor : Visitor σ ε) (key : String) : List Segment → Json → σ → Visited Json σ ε
  | [], .object ms, s =>
    if Members.contains key ms then
      let r := visitor ms s
      ⟨.object r.value, r.state, r.error⟩
    else ⟨.object ms, s, none⟩
  | .key k _ :: walk, .object ms, s =>
    match Members.get? k ms with
    | some child =>
      let r := visitWalk visitor key walk child s
      ⟨.object (Members.set k r.value ms), r.state, r.error⟩
    | none => ⟨.object ms, s, none⟩
  | .eachElement :: walk, .array items, s =>
    let r := visitItems (visitWalk visitor key walk) items s
    ⟨.array r.value, r.state, r.error⟩
  | _, node, s => ⟨node, s, none⟩

end Visitor

/-- Visits the targets of a path in document order. -/
def Json.visitTargets {σ ε : Type} (root : Json) (path : KeyPath) (visitor : Visitor σ ε) (s : σ) :
    Visited Json σ ε :=
  match path.finalKey? with
  | some key => visitor.visitWalk key path.walk root s
  | none => ⟨root, s, none⟩

end Redaction
