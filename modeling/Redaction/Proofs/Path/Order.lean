import Mathlib.Data.List.Forall2
import Mathlib.Data.List.Sort
import Redaction.Proofs.Json.Outline
import Redaction.Proofs.Path.Editing

/-!
# The targets of a path are all there, once each and in order

The places of the targets come in the lexicographic order of the array indices on the way to them
(`pairwise_indices_places`), so no two are the same. Together with what is known of each place and
with the order in which the targets come, this says exactly which objects a path yields
(`Targets.toList_positions`). It also says where the slots of a path are, as soon as it is known
which of the positions it points at are there (`positions_slots_congr`).
-/

namespace Redaction

/-- The array indices on the way to a position. -/
def Position.indices (p : Position) : List Nat :=
  p.filterMap fun
    | .element i => some i
    | .member _ => none

namespace Position

@[simp] theorem indices_member (k : String) (p : Position) :
    indices (.member k :: p) = indices p := rfl

@[simp] theorem indices_element (i : Nat) (p : Position) :
    indices (.element i :: p) = i :: indices p := rfl

@[simp] theorem indices_append (p q : Position) : indices (p ++ q) = indices p ++ indices q :=
  List.filterMap_append

theorem indices_cons_lt {p q : Position} (t : Step) (h : indices p < indices q) :
    indices (t :: p) < indices (t :: q) := by
  cases t with
  | member k => exact h
  | element i => exact List.cons_lt_cons_iff.mpr (Or.inr ⟨rfl, h⟩)

end Position

open Position

namespace Json

/-- A wildcard faces the elements in their order; a key faces one member at most. -/
theorem pairwise_index_facing (root : Json) (s : Segment) :
    (root.facing s).Pairwise fun a b => ∃ i j, a.1 = .element i ∧ b.1 = .element j ∧ i < j := by
  cases root <;> cases s <;> simp only [facing, List.Pairwise.nil]
  · next items =>
    have hlt : (items.zipIdx 0).Pairwise fun a b => a.2 < b.2 := by
      rw [← List.pairwise_map (f := Prod.snd) (R := (· < ·)), List.zipIdx_map_snd]
      exact List.pairwise_lt_range'
    rw [List.pairwise_map]
    exact hlt.imp fun {a b} h => ⟨a.2, b.2, rfl, rfl, h⟩
  · next ms k ne =>
    cases Members.get? k ms with
    | none => exact List.Pairwise.nil
    | some v => exact List.pairwise_singleton _ _

theorem pairwise_indices_placesAlong (key : String) (walk : List Segment) (root : Json) :
    (placesAlong key walk root).Pairwise fun a b => indices a.position < indices b.position := by
  induction walk generalizing root with
  | nil =>
    cases root <;> simp only [placesAlong, List.Pairwise.nil]
    split
    · exact List.pairwise_singleton _ _
    · exact List.Pairwise.nil
  | cons s walk ih =>
    rw [placesAlong, List.pairwise_flatMap]
    constructor
    · -- below one child the first step is the same
      rintro ⟨t, v⟩ -
      rw [List.pairwise_map]
      exact (ih v).imp fun h => indices_cons_lt t h
    · -- places below different children differ in the first index
      refine (pairwise_index_facing root s).imp fun {x y} hxy a ha b hb => ?_
      obtain ⟨i, j, hx, hy, hij⟩ := hxy
      obtain ⟨a, -, rfl⟩ := List.mem_map.mp ha
      obtain ⟨b, -, rfl⟩ := List.mem_map.mp hb
      have hlt : i :: indices a.position < j :: indices b.position :=
        List.cons_lt_cons_iff.mpr (Or.inl hij)
      simpa only [Place.under, hx, hy, indices_element] using hlt

/-- **The places of a path come in the order of the indices on the way to them.** -/
theorem pairwise_indices_places (root : Json) (path : KeyPath) :
    (root.places path).Pairwise fun a b => indices a.position < indices b.position := by
  unfold places
  split
  · exact pairwise_indices_placesAlong _ _ _
  · exact List.Pairwise.nil

theorem pairwise_indices_slots (root : Json) (path : KeyPath) :
    (root.slots path).Pairwise fun a b => indices a.1 < indices b.1 := by
  have hslot : ∀ (p : Place) (key : String), indices (p.slot key).1 = indices p.position := by
    intro p key
    show indices (p.position ++ [.member key]) = _
    rw [indices_append, indices_member]
    exact List.append_nil _
  rw [slots, List.pairwise_map]
  refine (pairwise_indices_places root path).imp fun h => ?_
  rw [hslot, hslot]
  exact h

/-- **Where the slots of a path are depends on which of the positions it points at are there.** -/
theorem positions_slots_congr {a b : Json} {path : KeyPath}
    (h : ∀ p, path.pointsAt p = true → (a.at? p).isSome = (b.at? p).isSome) :
    (a.slots path).map Prod.fst = (b.slots path).map Prod.fst := by
  have hlt : ∀ root : Json,
      ((root.slots path).map Prod.fst).Pairwise fun p q => indices p < indices q := by
    intro root
    rw [List.pairwise_map]
    exact pairwise_indices_slots root path
  have hnodup : ∀ root : Json, ((root.slots path).map Prod.fst).Nodup := by
    refine fun root => (hlt root).imp fun hpq he => ?_
    rw [he] at hpq
    exact List.lt_irrefl _ hpq
  have hmem : ∀ (root : Json) (p : Position), p ∈ (root.slots path).map Prod.fst ↔
      path.pointsAt p = true ∧ (root.at? p).isSome := by
    intro root p
    rw [Option.isSome_iff_exists]
    constructor
    · intro hp
      obtain ⟨s, hs, rfl⟩ := List.mem_map.mp hp
      obtain ⟨hpoints, hv⟩ := mem_slots.mp hs
      exact ⟨hpoints, s.2, hv⟩
    · rintro ⟨hpoints, v, hv⟩
      exact List.mem_map.mpr ⟨(p, v), mem_slots.mpr ⟨hpoints, hv⟩, rfl⟩
  have hperm : ((a.slots path).map Prod.fst).Perm ((b.slots path).map Prod.fst) := by
    rw [List.perm_ext_iff_of_nodup (hnodup a) (hnodup b)]
    intro p
    rw [hmem, hmem]
    exact and_congr_right fun hpoints => by rw [h p hpoints]
  -- in both events the same positions come in the same order
  exact hperm.eq_of_pairwise (fun p q _ _ hpq hqp => absurd hpq (List.lt_asymm hqp)) (hlt a) (hlt b)

end Json

/-- The steps that a walk follows, one for each segment. -/
theorem KeyPath.follows_iff {walk : List Segment} {p : Position} :
    follows walk p = true ↔ List.Forall₂ (fun s t => match s with
      | .key k _ => t = Step.member k
      | .eachElement => ∃ i, t = Step.element i) walk p := by
  induction walk generalizing p with
  | nil => cases p <;> simp [follows]
  | cons s walk ih =>
    cases p with
    | nil => simp [follows]
    | cons t p =>
      rw [follows, Bool.and_eq_true, ih, List.forall₂_cons]
      refine and_congr_left fun _ => ?_
      cases s <;> cases t <;> simp [Segment.faces, eq_comm]

namespace Targets

/-- **The targets of a path are exactly the matching objects, once each and in document order.** An
object matches if the walk leads to it, a key to that member of an object and a wildcard to any
element of an array, and if it has the last segment as a key. A branch that ends before takes
nothing away from the others. The path without segments has no targets. -/
theorem toList_positions (root : Json) :
    (∀ (walk : List Segment) (last : Segment), ∃ positions : List Position,
      (of root ⟨walk ++ [last]⟩).toList.map (fun ms => some (.object ms)) =
        positions.map root.at? ∧
      (∀ p, p ∈ positions ↔
        List.Forall₂ (fun s t => match s with
          | .key k _ => t = Step.member k
          | .eachElement => ∃ i, t = Step.element i) walk p ∧
        ∃ ms, root.at? p = some (.object ms) ∧ last.text ∈ Members.keys ms) ∧
      positions.Pairwise (fun p q => indices p < indices q) ∧ positions.Nodup) ∧
    (of root ⟨[]⟩).toList = [] := by
  refine ⟨fun walk last => ?_, ?_⟩
  · let path : KeyPath := ⟨walk ++ [last]⟩
    have hkey : path.finalKey? = some last.text := by
      rw [KeyPath.finalKey?, List.getLast?_concat]
      rfl
    have hwalk : path.walk = walk := List.dropLast_concat
    have hlt : ((root.places path).map Place.position).Pairwise
        fun p q => indices p < indices q := by
      rw [List.pairwise_map]
      exact Json.pairwise_indices_places root path
    refine ⟨(root.places path).map Place.position, ?_, fun p => ?_, hlt, ?_⟩
    · rw [← Json.map_at?_places, List.map_map]
      rfl
    · rw [← KeyPath.follows_iff, ← hwalk, List.mem_map]
      constructor
      · rintro ⟨q, hq, rfl⟩
        obtain ⟨hf, hat, hc⟩ := (Json.mem_places hkey).mp hq
        exact ⟨hf, q.members, hat, Members.contains_iff.mp hc⟩
      · rintro ⟨hf, ms, hat, hc⟩
        exact ⟨⟨p, ms⟩, (Json.mem_places hkey).mpr ⟨hf, hat, Members.contains_iff.mpr hc⟩, rfl⟩
    · exact hlt.imp fun h he => by
        rw [he] at h
        exact List.lt_irrefl _ h
  · rw [toList_of]
    rfl

/-- The last wildcard is a key, and the branches that end before take nothing away from the
others. -/
theorem toList_positions_wildcard :
    let root : Json := .object [("a", .array [.object [("[]", .null)], .null, .array [],
      .object [("k", .null), ("[]", .bool true)]])]
    (of root (.parse "a.[].[]")).toList = [[("[]", .null)], [("k", .null), ("[]", .bool true)]] ∧
      ∃ positions : List Position, positions.length = 2 ∧ positions.Nodup ∧
        [.member "a", .element 0] ∈ positions ∧ [.member "a", .element 3] ∈ positions := by
  intro root
  have hlist : (of root (.parse "a.[].[]")).toList =
      [[("[]", .null)], [("k", .null), ("[]", .bool true)]] := by
    rw [toList_of]
    rfl
  obtain ⟨positions, hmap, hmem, -, hnodup⟩ := (toList_positions root).1
    [.key "a" (by decide), .eachElement] .eachElement
  refine ⟨hlist, positions, ?_, hnodup, ?_, ?_⟩
  · have hlength := congrArg List.length hmap
    rw [List.length_map, List.length_map] at hlength
    rw [← hlength]
    exact congrArg List.length hlist
  · exact (hmem _).mpr ⟨.cons rfl (.cons ⟨0, rfl⟩ .nil), _, rfl, by decide⟩
  · exact (hmem _).mpr ⟨.cons rfl (.cons ⟨3, rfl⟩ .nil), _, rfl, by decide⟩

end Targets

end Redaction
