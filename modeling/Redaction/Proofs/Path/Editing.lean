import Redaction.Path.Visit
import Redaction.Proofs.Path.Resolution

/-!
# A visit edits the targets that were there at its start

A visitor may leave anything in the targets it is called on. Still it is called on the targets of
the event as it was before the visit, one after another up to the first error, and what it leaves
in them is all that changes: the targets are apart, so no edit is seen by a later call
(`visitTargets_eq_visitPlaces`).
-/

namespace Redaction

namespace Visitor

variable {σ ε : Type}

/-- Calls the visitor on the targets at these places in order, up to the first error: what it
leaves at each place it was called for. -/
def visitPlaces (visitor : Visitor σ ε) : List Place → σ → Visited (List (Position × Json)) σ ε
  | [], s => ⟨[], s, none⟩
  | p :: ps, s =>
    match visitor p.members s with
    | ⟨ms, s, some e⟩ => ⟨[(p.position, .object ms)], s, some e⟩
    | ⟨ms, s, none⟩ =>
      let r := visitPlaces visitor ps s
      ⟨(p.position, .object ms) :: r.value, r.state, r.error⟩

/-- The visitor that also keeps the targets it is called on, the latest at the end. -/
def recording (visitor : Visitor σ ε) : Visitor (List Members × σ) ε := fun ms (calls, s) =>
  let r := visitor ms s
  ⟨r.value, (calls ++ [ms], r.state), r.error⟩

variable {visitor : Visitor σ ε}

theorem visitPlaces_append (ps qs : List Place) (s : σ) :
    visitor.visitPlaces (ps ++ qs) s =
      match visitor.visitPlaces ps s with
      | ⟨edits, s, some e⟩ => ⟨edits, s, some e⟩
      | ⟨edits, s, none⟩ =>
        let r := visitor.visitPlaces qs s
        ⟨edits ++ r.value, r.state, r.error⟩ := by
  induction ps generalizing s with
  | nil => rfl
  | cons p ps ih =>
    rw [List.cons_append, visitPlaces, visitPlaces]
    rcases visitor p.members s with ⟨ms, s', e | e⟩
    · dsimp only
      rw [ih s']
      rcases visitor.visitPlaces ps s' with ⟨edits, s'', e | e⟩ <;> rfl
    · rfl

theorem visitPlaces_under (t : Step) (ps : List Place) (s : σ) :
    visitor.visitPlaces (ps.map (·.under t)) s =
      let r := visitor.visitPlaces ps s
      ⟨r.value.map fun e => (t :: e.1, e.2), r.state, r.error⟩ := by
  induction ps generalizing s with
  | nil => rfl
  | cons p ps ih =>
    rw [List.map_cons, visitPlaces, visitPlaces]
    show (match visitor p.members s with
      | ⟨ms, s, some e⟩ => _
      | ⟨ms, s, none⟩ => _) = _
    rcases visitor p.members s with ⟨ms, s', e | e⟩
    · dsimp only
      rw [ih s']
      rfl
    · rfl

theorem length_visitPlaces (ps : List Place) (s : σ) :
    (visitor.visitPlaces ps s).error = none →
      (visitor.visitPlaces ps s).value.length = ps.length := by
  induction ps generalizing s with
  | nil => exact fun _ => rfl
  | cons p ps ih =>
    rw [visitPlaces]
    rcases visitor p.members s with ⟨ms, s', e | e⟩
    · exact fun h => congrArg (· + 1) (ih s' h)
    · intro h
      cases h

theorem visitPlaces_recording (ps : List Place) (calls : List Members) (s : σ) :
    visitor.recording.visitPlaces ps (calls, s) =
      let r := visitor.visitPlaces ps s
      ⟨r.value, (calls ++ (ps.map Place.members).take r.value.length, r.state), r.error⟩ := by
  induction ps generalizing calls s with
  | nil => simp [visitPlaces]
  | cons p ps ih =>
    rw [visitPlaces, visitPlaces, recording]
    rcases visitor p.members s with ⟨ms, s', e | e⟩
    · dsimp only
      rw [ih]
      simp
    · simp

/-! ### The visit -/

open Json

/-- The items of an array are visited like the places in them; `before` are the items before. -/
theorem visitItems_eq_visitPlaces {key : String} {walk : List Segment}
    (ih : ∀ (v : Json) (s : σ), visitor.visitWalk key walk v s =
      let r := visitor.visitPlaces (placesAlong key walk v) s
      ⟨v.replaceAll r.value, r.state, r.error⟩)
    (before items : List Json) (s : σ) :
    let r := visitor.visitPlaces ((items.zipIdx before.length).flatMap fun e =>
      (placesAlong key walk e.1).map (·.under (.element e.2))) s
    let r' := visitItems (visitor.visitWalk key walk) items s
    (array (before ++ items)).replaceAll r.value = array (before ++ r'.value) ∧
      r.state = r'.state ∧ r.error = r'.error := by
  induction items generalizing before s with
  | nil => exact ⟨rfl, rfl, rfl⟩
  | cons v vs ihv =>
    have hc : (array (before ++ v :: vs)).child? (.element before.length) = some v := by
      simp [child?]
    have hset : ∀ w, (array (before ++ v :: vs)).setChild (.element before.length) w =
        array (before ++ w :: vs) := fun w => by simp [setChild]
    rw [List.zipIdx_cons, List.flatMap_cons, visitPlaces_append, visitPlaces_under, visitItems,
      ih v s]
    dsimp only
    rcases visitor.visitPlaces (placesAlong key walk v) s with ⟨edits, s', e | e⟩
    · have hrest := ihv (before ++ [v.replaceAll edits]) s'
      simp only [List.length_append, List.length_singleton, List.append_assoc,
        List.singleton_append] at hrest
      dsimp only
      rw [replaceAll_append, replaceAll_under hc, hset]
      exact hrest
    · refine ⟨?_, rfl, rfl⟩
      dsimp only
      rw [replaceAll_under hc, hset]

theorem visitWalk_eq_visitPlaces (key : String) (walk : List Segment) (node : Json) (s : σ) :
    visitor.visitWalk key walk node s =
      let r := visitor.visitPlaces (placesAlong key walk node) s
      ⟨node.replaceAll r.value, r.state, r.error⟩ := by
  induction walk generalizing node s with
  | nil =>
    cases node with
    | object ms =>
      rw [visitWalk, placesAlong]
      split
      · rw [visitPlaces]
        rcases visitor ms s with ⟨ms', s', e | e⟩ <;> rfl
      · rfl
    | _ => rfl
  | cons seg walk ih =>
    cases seg with
    | key k ne =>
      cases node with
      | object ms =>
        rw [visitWalk, placesAlong, facing]
        cases h : Members.get? k ms with
        | none => rfl
        | some c =>
          have hc : (object ms).child? (.member k) = some c := h
          simp only [Option.map_some, Option.toList_some, List.flatMap_singleton]
          rw [ih, visitPlaces_under, replaceAll_under hc]
          rfl
      | _ => rfl
    | eachElement =>
      cases node with
      | array items =>
        obtain ⟨h1, h2, h3⟩ := visitItems_eq_visitPlaces ih [] items s
        rw [visitWalk, placesAlong, facing, List.flatMap_map]
        dsimp only
        rw [← h2, ← h3]
        exact congrArg (Visited.mk · _ _) h1.symm
      | _ => rfl

end Visitor

namespace Json

variable {σ ε : Type}

/-- A visit calls the visitor on the targets at their places and puts there what it leaves. -/
theorem visitTargets_eq_visitPlaces (root : Json) (path : KeyPath) (visitor : Visitor σ ε) (s : σ) :
    root.visitTargets path visitor s =
      let r := visitor.visitPlaces (root.places path) s
      ⟨root.replaceAll r.value, r.state, r.error⟩ := by
  rw [visitTargets, places]
  cases path.finalKey? with
  | none => rfl
  | some key => exact Visitor.visitWalk_eq_visitPlaces key path.walk root s

theorem map_at?_places (root : Json) (path : KeyPath) :
    (root.places path).map (fun p => root.at? p.position) =
      (Targets.of root path).toList.map fun ms => some (object ms) := by
  rw [Targets.toList_of, List.map_map]
  exact List.map_congr_left fun p hp => at?_of_mem_places hp

/-- **A visit refines the list of targets.** The targets that come one after another are the
objects at the places of the path, any two of which are apart. The visitor is called on them as
they were before the visit, in this order and up to the first error, which is the outcome; the
event then is the old one with what the visitor left at each place it was called for. -/
theorem visitTargets_refines_toList (root : Json) (path : KeyPath) (visitor : Visitor σ ε) (s : σ) :
    let targets := (Targets.of root path).toList
    let places := root.places path
    let r := visitor.visitPlaces places s
    places.map Place.members = targets ∧
    places.map (fun p => root.at? p.position) = targets.map (fun ms => some (object ms)) ∧
    places.Pairwise (fun a b => Position.Apart a.position b.position) ∧
    root.visitTargets path visitor s = ⟨root.replaceAll r.value, r.state, r.error⟩ ∧
    (root.visitTargets path visitor.recording ([], s)).state.1 = targets.take r.value.length ∧
    (r.error = none → r.value.length = targets.length) := by
  refine ⟨(Targets.toList_of root path).symm, map_at?_places root path, pairwise_places root path,
    visitTargets_eq_visitPlaces root path visitor s, ?_, fun h => ?_⟩
  · rw [visitTargets_eq_visitPlaces, Visitor.visitPlaces_recording, Targets.toList_of]
    exact List.nil_append _
  · rw [Targets.toList_of, List.length_map]
    exact Visitor.length_visitPlaces _ _ h

/-- The first target is cleared, the second gets a member on the path, and the visit ends with the
third. -/
theorem visitTargets_refines_toList_cleared :
    let item (v : Json) : Json := .object [("k", v)]
    let visitor : Visitor Nat String := fun ms n =>
      if n = 0 then ⟨[], 1, none⟩
      else if n = 1 then ⟨("a", .array [item .null]) :: ms, 2, none⟩
      else ⟨[("k", .bool true)], n, some "enough"⟩
    let path := KeyPath.parse "a.[].k"
    let root : Json := .object [("a", .array [item .null, .null, item (.bool true), .object [],
      item (.bool false), item .null])]
    let left : Json := .object [("a", .array [.object [], .null,
      .object [("a", .array [item .null]), ("k", .bool true)], .object [],
      item (.bool true), item .null])]
    (Targets.of root path).toList =
        [[("k", .null)], [("k", .bool true)], [("k", .bool false)], [("k", .null)]] ∧
      root.visitTargets path visitor 0 = ⟨left, 2, some "enough"⟩ ∧
      (root.visitTargets path visitor.recording ([], 0)).state.1 =
        [[("k", .null)], [("k", .bool true)], [("k", .bool false)]] := by
  intro item visitor path root left
  obtain ⟨hmembers, -, -, hvisit, hcalls, -⟩ := visitTargets_refines_toList root path visitor 0
  rw [hvisit, hcalls, ← hmembers]
  exact ⟨rfl, rfl, rfl⟩

end Json

end Redaction
