import Redaction.Proofs.Json.Outline
import Redaction.Proofs.Path.Resolution

/-!
# A sample event for every path

`KeyPath.sample` puts a value where a path points, in an event with nothing beside it: an object with
one member for each key of the walk, and an array with one element for each wildcard. The path has
one target there (`KeyPath.toList_sample`), and the value stands in its only slot
(`KeyPath.slots_sample`).
-/

namespace Redaction

/-- The step that a segment faces in a sample. -/
def Segment.sampleStep : Segment → Step
  | key name _ => .member name
  | eachElement => .element 0

namespace Json

/-- The value at the end of a walk, with nothing beside it. -/
def along : List Segment → Json → Json
  | [], v => v
  | .key name _ :: walk, v => object [(name, along walk v)]
  | .eachElement :: walk, v => array [along walk v]

variable {walk : List Segment} {key : String} {ms : Members} {v w : Json}

theorem facing_along (s : Segment) (walk : List Segment) (v : Json) :
    (along (s :: walk) v).facing s = [(s.sampleStep, along walk v)] := by
  cases s with
  | key name ne => simp [along, facing, Members.get?, Segment.sampleStep]
  | eachElement => rfl

theorem placesAlong_along (h : Members.contains key ms = true) :
    placesAlong key walk (along walk (object ms)) = [⟨walk.map Segment.sampleStep, ms⟩] := by
  induction walk with
  | nil => exact if_pos h
  | cons s walk ih =>
    rw [placesAlong, facing_along, List.flatMap_singleton]
    exact congrArg (List.map (Place.under s.sampleStep)) ih

theorem wellFormed_along (walk : List Segment) (h : v.WellFormed) : (along walk v).WellFormed := by
  induction walk with
  | nil => exact h
  | cons s walk ih => cases s <;> simp [along, Members.keys, ih]

end Json

namespace KeyPath

variable {path : KeyPath} {key : String}

/-- An event with one target of the path, which holds `v` under the final key. -/
def sample (path : KeyPath) (v : Json) : Json :=
  Json.along path.walk (.object [(path.finalKey?.getD "", v)])

/-- Where `v` stands in such an event. -/
def samplePosition (path : KeyPath) : Position :=
  path.walk.map Segment.sampleStep ++ [.member (path.finalKey?.getD "")]

theorem places_sample (hk : path.finalKey? = some key) (v : Json) :
    (path.sample v).places path = [⟨path.walk.map Segment.sampleStep, [(key, v)]⟩] := by
  have hcontains : Members.contains key [(key, v)] = true := by
    simp [Members.contains, Members.get?]
  rw [Json.places, sample, hk]
  exact Json.placesAlong_along hcontains

theorem toList_sample (hk : path.finalKey? = some key) (v : Json) :
    (Targets.of (path.sample v) path).toList = [[(key, v)]] := by
  rw [Targets.toList_of, places_sample hk]
  rfl

theorem slots_sample (hk : path.finalKey? = some key) (v : Json) :
    (path.sample v).slots path = [(path.samplePosition, v)] := by
  rw [Json.slots, places_sample hk, samplePosition, hk]
  simp [Place.slot, Members.get?]

theorem wellFormed_sample (path : KeyPath) {v : Json} (h : v.WellFormed) :
    (path.sample v).WellFormed :=
  Json.wellFormed_along _ (by simpa [Members.keys] using h)

end KeyPath

end Redaction
