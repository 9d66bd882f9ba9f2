import Redaction.Proofs.Json.Replacement

/-!
# Where the targets of a path are

`Json.places` lists the objects that the walk of a path leads to and that hold its final key, each
with its position, in document order. They are told apart by their positions alone: exactly the
objects at the positions that the walk follows (`mem_places`), and any two of them are apart
(`pairwise_places`). `Json.slots` lists the places of the final key in them with the values that
stand there; the path points at these positions and at no others (`mem_slots`).
-/

namespace Redaction

open Position

/-! ### The parts that a segment faces -/

/-- The parts to which one segment of a walk leads, in document order. -/
def Json.facing : Json → Segment → List (Step × Json)
  | object ms, .key k _ => ((Members.get? k ms).map fun v => (Step.member k, v)).toList
  | array items, .eachElement => items.zipIdx.map fun (v, i) => (Step.element i, v)
  | _, _ => []

theorem Json.mem_facing {root v : Json} {s : Segment} {t : Step} :
    (t, v) ∈ root.facing s ↔ s.faces t = true ∧ root.child? t = some v := by
  cases root with
  | object ms =>
    cases s with
    | eachElement => cases t <;> simp [facing, Segment.faces, child?]
    | key k ne =>
      rw [facing, Option.mem_toList, Option.map_eq_some_iff]
      constructor
      · rintro ⟨w, h, he⟩
        obtain ⟨rfl, rfl⟩ := Prod.mk.inj he
        exact ⟨decide_eq_true rfl, h⟩
      · rintro ⟨hs, h⟩
        cases t with
        | element i => cases hs
        | member k' =>
          obtain rfl : k = k' := of_decide_eq_true hs
          exact ⟨v, h, rfl⟩
  | array items =>
    cases s with
    | key k ne => cases t <;> simp [facing, Segment.faces, child?]
    | eachElement =>
      rw [facing, List.mem_map]
      constructor
      · rintro ⟨⟨w, i⟩, h, he⟩
        obtain ⟨rfl, rfl⟩ := Prod.mk.inj he
        exact ⟨rfl, List.mem_zipIdx_iff_getElem?.mp h⟩
      · rintro ⟨hs, h⟩
        cases t with
        | member k => cases hs
        | element i => exact ⟨(v, i), List.mem_zipIdx_iff_getElem?.mpr h, rfl⟩
  | _ => cases s <;> cases t <;> simp [facing, Segment.faces, child?]

theorem Json.pairwise_facing (root : Json) (s : Segment) :
    (root.facing s).Pairwise fun a b => a.1 ≠ b.1 := by
  cases root <;> cases s <;> simp only [facing, List.Pairwise.nil]
  · next items =>
    have hlt : (items.zipIdx 0).Pairwise fun a b => a.2 ≠ b.2 := by
      rw [← List.pairwise_map (f := Prod.snd) (R := (· ≠ ·)), List.zipIdx_map_snd]
      exact List.nodup_range'
    rw [List.pairwise_map]
    exact hlt.imp fun hne he => hne (Step.element.inj he)
  · next ms k ne =>
    cases Members.get? k ms with
    | none => exact List.Pairwise.nil
    | some v => exact List.pairwise_singleton _ _

/-! ### Places -/

/-- A target and its position. -/
structure Place where
  position : Position
  members : Members

namespace Place

/-- A place in the part to which a step leads. -/
def under (t : Step) (p : Place) : Place := ⟨t :: p.position, p.members⟩

/-- The position of the value under a key of the target, and the value. -/
def slot (key : String) (p : Place) : Position × Json :=
  (p.position ++ [.member key], (Members.get? key p.members).getD .null)

end Place

namespace Json

/-- The objects at the end of a walk that hold `key`, in document order. -/
def placesAlong (key : String) : List Segment → Json → List Place
  | [], object ms => if Members.contains key ms then [⟨[], ms⟩] else []
  | [], _ => []
  | s :: walk, root => (root.facing s).flatMap fun (t, v) => (placesAlong key walk v).map (·.under t)

/-- The targets of a path, in document order. -/
def places (root : Json) (path : KeyPath) : List Place :=
  match path.finalKey? with
  | some key => placesAlong key path.walk root
  | none => []

theorem mem_placesAlong {key : String} {walk : List Segment} {root : Json} {p : Place} :
    p ∈ placesAlong key walk root ↔ KeyPath.follows walk p.position = true ∧
      root.at? p.position = some (object p.members) ∧ Members.contains key p.members = true := by
  obtain ⟨q, ms⟩ := p
  induction walk generalizing root q with
  | nil =>
    cases q with
    | cons t q => cases root <;> simp [placesAlong, KeyPath.follows]
    | nil =>
      cases root <;> simp [placesAlong, KeyPath.follows, at?]
      · next ms' =>
        constructor
        · rintro ⟨h, rfl⟩
          exact ⟨rfl, h⟩
        · rintro ⟨rfl, h⟩
          exact ⟨h, rfl⟩
  | cons s walk ih =>
    simp only [placesAlong, List.mem_flatMap, List.mem_map, Place.under, Prod.exists]
    cases q with
    | nil => simp [KeyPath.follows]
    | cons t q =>
      simp only [KeyPath.follows, Bool.and_eq_true, at?, Option.bind_eq_some_iff]
      constructor
      · rintro ⟨t', v, hv, p', hp', he⟩
        obtain ⟨q', ms'⟩ := p'
        simp only [Place.mk.injEq, List.cons.injEq] at he
        obtain ⟨⟨rfl, rfl⟩, rfl⟩ := he
        obtain ⟨hs, hc⟩ := mem_facing.mp hv
        obtain ⟨hf, ha, hk⟩ := (ih q').mp hp'
        exact ⟨⟨hs, hf⟩, ⟨v, hc, ha⟩, hk⟩
      · rintro ⟨⟨hs, hf⟩, ⟨v, hc, ha⟩, hk⟩
        exact ⟨t, v, mem_facing.mpr ⟨hs, hc⟩, ⟨q, ms⟩, (ih q).mpr ⟨hf, ha, hk⟩, rfl⟩

theorem pairwise_placesAlong (key : String) (walk : List Segment) (root : Json) :
    (placesAlong key walk root).Pairwise fun a b => Apart a.position b.position := by
  induction walk generalizing root with
  | nil =>
    cases root <;> simp only [placesAlong, List.Pairwise.nil]
    split
    · exact List.pairwise_singleton _ _
    · exact List.Pairwise.nil
  | cons s walk ih =>
    rw [placesAlong, List.pairwise_flatMap]
    refine ⟨fun (t, v) _ => ?_, (pairwise_facing root s).imp fun hne a ha b hb => ?_⟩
    · rw [List.pairwise_map]
      exact (ih v).imp fun h => apart_cons.mpr (Or.inr h)
    · obtain ⟨a, -, rfl⟩ := List.mem_map.mp ha
      obtain ⟨b, -, rfl⟩ := List.mem_map.mp hb
      exact apart_cons.mpr (Or.inl hne)

/-- **The targets are the objects at the positions that the walk follows.** -/
theorem mem_places {root : Json} {path : KeyPath} {key : String} (hk : path.finalKey? = some key)
    {p : Place} : p ∈ root.places path ↔ KeyPath.follows path.walk p.position = true ∧
      root.at? p.position = some (object p.members) ∧ Members.contains key p.members = true := by
  rw [places, hk]
  exact mem_placesAlong

theorem at?_of_mem_places {root : Json} {path : KeyPath} {p : Place} (h : p ∈ root.places path) :
    root.at? p.position = some (object p.members) := by
  unfold places at h
  split at h
  · exact (mem_placesAlong.mp h).2.1
  · cases h

theorem contains_of_mem_places {root : Json} {path : KeyPath} {p : Place}
    (h : p ∈ root.places path) : Members.contains (path.finalKey?.getD "") p.members = true := by
  unfold places at h
  split at h
  · next key hk =>
    rw [hk]
    exact (mem_placesAlong.mp h).2.2
  · cases h

/-- **Any two targets of a path are apart.** -/
theorem pairwise_places (root : Json) (path : KeyPath) :
    (root.places path).Pairwise fun a b => Apart a.position b.position := by
  unfold places
  split
  · exact pairwise_placesAlong _ _ _
  · exact List.Pairwise.nil

end Json

/-! ### The positions that a path points at -/

theorem KeyPath.pointsAt_iff {path : KeyPath} {p : Position} :
    path.pointsAt p = true ↔ ∃ key q, path.finalKey? = some key ∧ p = q ++ [.member key] ∧
      follows path.walk q = true := by
  unfold pointsAt
  cases hk : path.finalKey? with
  | none => simp
  | some key =>
    rcases List.eq_nil_or_concat p with rfl | ⟨q, t, rfl⟩
    · simp
    · rw [List.concat_eq_append]
      cases t with
      | element i => simp
      | member k =>
        simp only [List.getLast?_concat, List.dropLast_concat, Bool.and_eq_true,
          decide_eq_true_eq]
        constructor
        · rintro ⟨rfl, h⟩
          exact ⟨key, q, rfl, rfl, h⟩
        · rintro ⟨key', q', hkey, he, h⟩
          obtain ⟨rfl, ht⟩ := List.append_inj' he rfl
          cases hkey
          cases ht
          exact ⟨rfl, h⟩

theorem KeyPath.length_of_follows : ∀ {walk : List Segment} {q : Position},
    follows walk q = true → q.length = walk.length
  | [], [], _ => rfl
  | [], _ :: _, h => by cases h
  | _ :: _, [], h => by cases h
  | _ :: walk, _ :: q, h => congrArg (· + 1) (length_of_follows ((Bool.and_eq_true _ _).mp h).2)

theorem KeyPath.length_eq_of_pointsAt {path : KeyPath} {p q : Position}
    (hp : path.pointsAt p = true) (hq : path.pointsAt q = true) : p.length = q.length := by
  obtain ⟨k, p, -, rfl, hfp⟩ := pointsAt_iff.mp hp
  obtain ⟨k', q, -, rfl, hfq⟩ := pointsAt_iff.mp hq
  rw [List.length_append, List.length_append, length_of_follows hfp, length_of_follows hfq]
  rfl

namespace Json

/-- The values under the final key of the targets of a path, with their positions. -/
def slots (root : Json) (path : KeyPath) : List (Position × Json) :=
  (root.places path).map (·.slot (path.finalKey?.getD ""))

theorem at?_append_member {root : Json} {q : Position} {ms : Members} {k : String}
    (h : root.at? q = some (object ms)) : root.at? (q ++ [.member k]) = Members.get? k ms := by
  rw [at?_append, h]
  show (Members.get? k ms).bind some = _
  cases Members.get? k ms <;> rfl

/-- **The slots of a path are the parts at the positions it points at.** -/
theorem mem_slots {root v : Json} {path : KeyPath} {p : Position} :
    (p, v) ∈ root.slots path ↔ path.pointsAt p = true ∧ root.at? p = some v := by
  rw [slots, List.mem_map, KeyPath.pointsAt_iff]
  constructor
  · rintro ⟨⟨q, ms⟩, hp, he⟩
    cases hk : path.finalKey? with
    | none => rw [places, hk] at hp; cases hp
    | some key =>
      obtain ⟨hf, ha, hc⟩ := (mem_places hk).mp hp
      obtain ⟨w, hw⟩ := Option.isSome_iff_exists.mp hc
      rw [hk] at he
      simp only [Place.slot, Option.getD_some, Prod.mk.injEq] at he
      obtain ⟨rfl, rfl⟩ := he
      refine ⟨⟨key, q, rfl, rfl, hf⟩, ?_⟩
      rw [at?_append_member ha, hw]
      rfl
  · rintro ⟨⟨key, q, hk, rfl, hf⟩, hv⟩
    obtain ⟨c, hc, hv⟩ := Option.bind_eq_some_iff.mp ((at?_append _ _ _).symm.trans hv)
    obtain ⟨v', hv', he⟩ := Option.bind_eq_some_iff.mp hv
    cases he
    cases c <;> simp only [child?, reduceCtorEq] at hv'
    next ms =>
    have hs : Members.contains key ms = true := by rw [Members.contains, hv']; rfl
    refine ⟨⟨q, ms⟩, (mem_places hk).mpr ⟨hf, hc, hs⟩, ?_⟩
    rw [hk]
    simp only [Place.slot, Option.getD_some, hv']

/-- Replacing targets that have another value under a key is replacing these values. -/
theorem replaceAll_members {key : String} {ps : List Place} {root : Json} (w : Place → Json)
    (hp : ps.Pairwise fun a b => Apart a.position b.position)
    (hk : ∀ p ∈ ps, Members.contains key p.members = true)
    (ha : ∀ p ∈ ps, root.at? p.position = some (object p.members)) :
    root.replaceAll (ps.map fun p => (p.position, object (Members.set key (w p) p.members))) =
      root.replaceAll (ps.map fun p => (p.position ++ [.member key], w p)) := by
  induction ps generalizing root with
  | nil => rfl
  | cons p ps ih =>
    obtain ⟨hpp, hp⟩ := List.pairwise_cons.mp hp
    have hroot := ha p List.mem_cons_self
    have hset : root.replaceAt (p.position ++ [.member key]) (w p) =
        root.replaceAt p.position (object (Members.set key (w p) p.members)) := by
      obtain ⟨v, hv⟩ := Option.isSome_iff_exists.mp (hk p List.mem_cons_self)
      have hc : (object p.members).child? (.member key) = some v := hv
      rw [replaceAt_append hroot, replaceAt_cons hc]
      rfl
    rw [List.map_cons, List.map_cons, replaceAll_cons, replaceAll_cons, hset]
    refine ih hp (fun q hq => hk q (List.mem_cons_of_mem p hq)) fun q hq => ?_
    rw [at?_replaceAt_of_apart (hpp q hq)]
    exact ha q (List.mem_cons_of_mem p hq)

/-- Targets that are put back as they were do not count. -/
theorem replaceAll_members_append {key : String} {ps kept : List Place} {root : Json}
    (w : Place → Json) (hp : (ps ++ kept).Pairwise fun a b => Apart a.position b.position)
    (hk : ∀ p ∈ ps, Members.contains key p.members = true)
    (ha : ∀ p ∈ ps ++ kept, root.at? p.position = some (object p.members)) :
    root.replaceAll (ps.map (fun p => (p.position, object (Members.set key (w p) p.members))) ++
        kept.map fun p => (p.position, object p.members)) =
      root.replaceAll (ps.map fun p => (p.position ++ [.member key], w p)) := by
  obtain ⟨hps, -, hapart⟩ := List.pairwise_append.mp hp
  have hset := replaceAll_members w hps hk fun p h => ha p (List.mem_append_left kept h)
  rw [replaceAll_append, hset]
  refine replaceAll_at? fun e he => ?_
  obtain ⟨q, hq, rfl⟩ := List.mem_map.mp he
  rw [at?_replaceAll_of_apart, ha q (List.mem_append_right ps hq)]
  intro e he
  obtain ⟨p, hpm, rfl⟩ := List.mem_map.mp he
  exact (hapart p hpm q hq).append_left _

theorem pairwise_slots (root : Json) (path : KeyPath) :
    (root.slots path).Pairwise fun a b => Apart a.1 b.1 := by
  rw [slots, List.pairwise_map]
  exact (pairwise_places root path).imp fun h => ((h.append_left _).symm.append_left _).symm

end Json

end Redaction
