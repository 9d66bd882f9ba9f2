import Redaction.Path.Targets
import Redaction.Proofs.Path.Places

/-!
# The targets of a path come as they are placed

What the branches on the stack still hold, from the top to the bottom, is what is still to come
(`next_remaining`); what following one branch finds is found by one induction (`follow_flatMap`). So
the targets that come one after another are those of `Json.places`, in the same order (`toList_of`).
An event in which a path has a target holds all keys of the path (`hasKey_of_toList`).
-/

namespace Redaction

/-- The targets at the end of a walk, in document order. -/
def Json.targetsAlong (key : String) (walk : List Segment) (root : Json) : List Members :=
  (placesAlong key walk root).map Place.members

/-- The targets in a branch. -/
def Branch.targets (key : String) (walk : List Segment) (b : Branch) : List Members :=
  b.node.targetsAlong key (walk.drop b.index)

namespace Json

variable {key : String} {walk : List Segment}

theorem targetsAlong_cons (s : Segment) (root : Json) :
    targetsAlong key (s :: walk) root =
      (root.facing s).flatMap fun e => targetsAlong key walk e.2 := by
  simp only [targetsAlong, placesAlong, List.map_flatMap, List.map_map]
  rfl

theorem flatMap_facing_items {α : Type} (items : List Json) (f : Json → List α) :
    ((array items).facing .eachElement).flatMap (fun e => f e.2) = items.flatMap f := by
  have h : (items.zipIdx.map Prod.fst).flatMap f = items.flatMap f := by rw [List.zipIdx_map_fst]
  rw [facing, List.flatMap_map, ← h, List.flatMap_map]

end Json

namespace Branch

open Json

/-- Following a branch loses nothing of what is found part by part: `own` for each part that a
wildcard faces, and then the same along the walk below it. `i` is the index of the first segment. -/
theorem follow_flatMap {α : Type} (found : List Segment → Nat → Json → List α)
    (own : Segment → Nat → Json → List α)
    (hfound : ∀ s walk i node, found (s :: walk) i node =
      (node.facing s).flatMap fun e => own s (i + 1) e.2 ++ found walk (i + 1) e.2)
    (hown : ∀ k ne i v, own (.key k ne) i v = []) (walk : List Segment) (i : Nat) (node : Json) :
    match follow walk i node with
    | .arrived v => found walk i node = found [] (i + walk.length) v
    | .forks items j => i < j ∧ j ≤ i + walk.length ∧ found walk i node =
        items.flatMap fun v => own .eachElement j v ++ found (walk.drop (j - i)) j v
    | .deadEnd => found walk i node = [] := by
  have hnone : ∀ {s walk i node}, node.facing s = [] → found (s :: walk) i node = [] := by
    intro s walk i node h
    rw [hfound, h, List.flatMap_nil]
  induction walk generalizing i node with
  | nil => rfl
  | cons s walk ih =>
    cases s with
    | key k ne =>
      cases node with
      | object ms =>
        cases h : Members.get? k ms with
        | none =>
          rw [follow, h]
          exact hnone (by rw [facing, h]; rfl)
        | some v =>
          have hcons : found (.key k ne :: walk) i (.object ms) = found walk (i + 1) v := by
            rw [hfound, facing, h]
            exact (List.append_nil _).trans (congrArg (· ++ _) (hown k ne (i + 1) v))
          rw [follow, h, hcons]
          have hv := ih (i + 1) v
          dsimp only at hv ⊢
          split at hv
          · rw [hv, List.length_cons, Nat.add_right_comm, Nat.add_assoc]
          · next items j _ =>
            obtain ⟨h1, h2, h3⟩ := hv
            have hj : j - i = j - (i + 1) + 1 := by omega
            refine ⟨by omega, by rw [List.length_cons]; omega, ?_⟩
            rw [hj, List.drop_succ_cons]
            exact h3
          · exact hv
      | _ => exact hnone rfl
    | eachElement =>
      cases node with
      | array items =>
        refine ⟨Nat.lt_succ_self i, by rw [List.length_cons]; omega, ?_⟩
        rw [Nat.add_sub_cancel_left, hfound]
        exact flatMap_facing_items items fun v => own .eachElement (i + 1) v ++ found walk (i + 1) v
      | _ => exact hnone rfl

/-- What is found where a branch leads without a choice; `i` is the index of the first segment. -/
theorem follow_targetsAlong (key : String) (walk : List Segment) (i : Nat) (node : Json) :
    match follow walk i node with
    | .arrived (.object ms) =>
        node.targetsAlong key walk = if Members.contains key ms then [ms] else []
    | .forks items j => i < j ∧ j ≤ i + walk.length ∧
        node.targetsAlong key walk = items.flatMap fun v => v.targetsAlong key (walk.drop (j - i))
    | _ => node.targetsAlong key walk = [] := by
  have h := follow_flatMap (fun walk _ node => node.targetsAlong key walk) (fun _ _ _ => [])
    (fun s _ _ node => targetsAlong_cons s node) (fun _ _ _ _ => rfl) walk i node
  split
  · next ms hf =>
    rw [hf] at h
    rw [h, targetsAlong, placesAlong]
    split <;> rfl
  · next items j hf =>
    rw [hf] at h
    exact h
  · next hobject hforks =>
    split at h
    · next v hf =>
      rw [h]
      cases v with
      | object ms => exact absurd hf (hobject ms)
      | _ => rfl
    · next items j hf => exact absurd hf (hforks items j)
    · exact h

theorem targets_fork {key : String} {walk : List Segment} {b : Branch} {items : List Json} {j : Nat}
    (h : follow (walk.drop b.index) b.index b.node = .forks items j) :
    b.targets key walk = (items.map (⟨·, j⟩)).flatMap (targets key walk) := by
  have hf := follow_targetsAlong key (walk.drop b.index) b.index b.node
  rw [h] at hf
  obtain ⟨hlt, -, ht⟩ := hf
  have hd : b.index + (j - b.index) = j := by omega
  rw [List.drop_drop, hd] at ht
  rw [targets, ht, List.flatMap_map]
  rfl

end Branch

namespace Targets

/-- What the pending branches hold, from the first to the last. -/
def remaining (t : Targets) : List Members := t.pending.flatMap (Branch.targets t.key t.walk)

theorem remaining_cons {walk : List Segment} {key : String} {b : Branch} {pending : List Branch} :
    remaining ⟨walk, key, b :: pending⟩ = b.targets key walk ++ remaining ⟨walk, key, pending⟩ :=
  List.flatMap_cons

/-- **The next target is the first of those that the pending branches hold.** -/
theorem next_remaining (t : Targets) :
    t.remaining = match next t with
      | (some ms, t') => ms :: t'.remaining
      | (none, _) => [] := by
  fun_induction next t with
  | case1 walk key => rfl
  | case2 walk key b pending ms hf hc =>
    have h := Branch.follow_targetsAlong key (walk.drop b.index) b.index b.node
    rw [hf] at h
    rw [remaining_cons, Branch.targets, h, if_pos hc]
    rfl
  | case3 walk key b pending ms hf hc ih =>
    have h := Branch.follow_targetsAlong key (walk.drop b.index) b.index b.node
    rw [hf] at h
    rw [remaining_cons, Branch.targets, h, if_neg hc]
    exact ih
  | case4 walk key b pending items j hf ih =>
    rw [remaining_cons, Branch.targets_fork hf, ← ih, remaining, remaining, List.flatMap_append]
  | case5 walk key b pending hna hnf ih =>
    have h := Branch.follow_targetsAlong key (walk.drop b.index) b.index b.node
    rw [remaining_cons, Branch.targets]
    split at h
    · next ms hf => exact absurd hf (hna ms)
    · next items j hf => exact absurd hf (hnf items j)
    · rw [h]
      exact ih

theorem toList_eq_remaining (t : Targets) : t.toList = t.remaining := by
  fun_induction toList t with
  | case1 t ms h ih =>
    rw [next_remaining t]
    rcases hn : next t with ⟨o, t'⟩
    rw [hn] at h ih
    cases h
    exact congrArg (ms :: ·) ih
  | case2 t h =>
    rw [next_remaining t]
    rcases hn : next t with ⟨o, t'⟩
    rw [hn] at h
    cases h
    rfl

/-- **The targets of a path come in document order, each from its place.** -/
theorem toList_of (root : Json) (path : KeyPath) :
    (Targets.of root path).toList = (root.places path).map Place.members := by
  rw [toList_eq_remaining, Targets.of, Json.places]
  cases path.finalKey? with
  | none => rfl
  | some key => exact List.append_nil _

end Targets

/-! ### Keys of a path are keys of the event -/

/-- Some object in the value has this key. -/
def Json.HasKey (root : Json) (key : String) : Prop :=
  ∃ p, (root.at? (p ++ [.member key])).isSome

theorem Json.hasKey_of_follows {root : Json} {walk : List Segment} {q : Position} {k : String}
    {ne : k ≠ wildcard} (hf : KeyPath.follows walk q = true) (hq : (root.at? q).isSome)
    (hk : Segment.key k ne ∈ walk) : root.HasKey k := by
  induction walk generalizing root q with
  | nil => cases hk
  | cons s walk ih =>
    cases q with
    | nil => cases hf
    | cons t q =>
      obtain ⟨hs, hf⟩ := Bool.and_eq_true_iff.mp hf
      cases hc : root.child? t with
      | none => rw [at?, hc] at hq; cases hq
      | some c =>
        rw [at?, hc] at hq
        rcases List.mem_cons.mp hk with rfl | hk
        · cases t with
          | element i => cases hs
          | member k' =>
            obtain rfl : k = k' := of_decide_eq_true hs
            exact ⟨[], by rw [List.nil_append, at?, hc]; rfl⟩
        · obtain ⟨p, hp⟩ := ih hf hq hk
          exact ⟨t :: p, by rw [List.cons_append, at?, hc]; exact hp⟩

namespace Targets

variable {root : Json} {path : KeyPath} {key : String}

theorem exists_place (h : (of root path).toList ≠ []) : ∃ p, p ∈ root.places path := by
  rw [toList_of] at h
  exact List.exists_mem_of_ne_nil _ fun he => h (congrArg (List.map _) he)

theorem hasKey_finalKey (h : (of root path).toList ≠ []) (hk : path.finalKey? = some key) :
    root.HasKey key := by
  obtain ⟨p, hp⟩ := exists_place h
  obtain ⟨-, hat, hc⟩ := (Json.mem_places hk).mp hp
  exact ⟨p.position, by rw [Json.at?_append_member hat]; exact hc⟩

theorem hasKey_of_toList {ne : key ≠ wildcard} (h : (of root path).toList ≠ [])
    (hs : Segment.key key ne ∈ path.segments) : root.HasKey key := by
  have hne : path.segments ≠ [] := List.ne_nil_of_mem hs
  have hlast : path.finalKey? = some (path.segments.getLast hne).text :=
    congrArg (Option.map Segment.text) (List.getLast?_eq_some_getLast hne)
  rw [← List.dropLast_concat_getLast hne, List.mem_append, List.mem_singleton] at hs
  rcases hs with hs | hs
  · obtain ⟨p, hp⟩ := exists_place h
    obtain ⟨hf, hat, -⟩ := (Json.mem_places hlast).mp hp
    exact Json.hasKey_of_follows hf (Option.isSome_of_eq_some hat) hs
  · rw [← hs] at hlast
    exact hasKey_finalKey h hlast

end Targets

end Redaction
