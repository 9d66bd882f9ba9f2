import Mathlib.Data.List.Basic
import Redaction.Proofs.Path.Order

/-!
# Related paths

Two paths are related if the segments of one start with those of the other. Paths that are not
related point at positions that are apart, in any event (`apart_of_not_related`): a wildcard leads
to elements only, a key to members only, a final wildcard is read as a key, and no key is spelled
like the wildcard. So what is put at the positions of one path changes no slot of the other
(`slots_replaceAll`), and where its own slots are does not change either
(`positions_slots_replaceAll`).
-/

namespace Redaction

open Position

namespace Segment

variable {s s' : Segment} {t : Step}

theorem eq_of_faces (h : s.faces t = true) (h' : s'.faces t = true) : s = s' := by
  cases s <;> cases s' <;> cases t <;> simp [faces] at h h' ⊢
  exact h.trans h'.symm

/-- A segment of a walk faces a member spelled like another segment only if they are the same. -/
theorem eq_of_faces_text (h : s.faces (.member s'.text) = true) : s = s' := by
  cases s with
  | eachElement => cases h
  | key name ne =>
    have hname : name = s'.text := of_decide_eq_true h
    have htext : (key name ne).text = s'.text := hname
    rw [← ofText_text (key name ne), htext, ofText_text]

theorem text_inj (h : s.text = s'.text) : s = s' := by
  rw [← ofText_text s, h, ofText_text]

end Segment

namespace KeyPath

/-- The segments of one path start with those of the other. -/
def Related (a b : KeyPath) : Prop := a.segments <+: b.segments ∨ b.segments <+: a.segments

instance (a b : KeyPath) : Decidable (Related a b) :=
  inferInstanceAs (Decidable (a.segments <+: b.segments ∨ b.segments <+: a.segments))

theorem Related.symm {a b : KeyPath} (h : Related a b) : Related b a := Or.symm h

theorem pointsAt_singleton {s : Segment} {p : Position} :
    pointsAt ⟨[s]⟩ p = true ↔ p = [.member s.text] := by
  rw [pointsAt_iff]
  constructor
  · rintro ⟨key, q, hk, rfl, hf⟩
    cases q with
    | nil => rw [← Option.some.inj hk]; rfl
    | cons t q => cases hf
  · rintro rfl
    exact ⟨s.text, [], rfl, rfl, rfl⟩

theorem pointsAt_cons_cons {s s' : Segment} {rest : List Segment} {p : Position} :
    pointsAt ⟨s :: s' :: rest⟩ p = true ↔
      ∃ t q, p = t :: q ∧ s.faces t = true ∧ pointsAt ⟨s' :: rest⟩ q = true := by
  rw [pointsAt_iff]
  constructor
  · rintro ⟨key, q, hk, rfl, hf⟩
    cases q with
    | nil => cases hf
    | cons t q =>
      obtain ⟨hs, hf⟩ := (Bool.and_eq_true _ _).mp hf
      exact ⟨t, q ++ [.member key], rfl, hs, pointsAt_iff.mpr ⟨key, q, hk, rfl, hf⟩⟩
  · rintro ⟨t, q, rfl, hs, hp⟩
    obtain ⟨key, q, hk, rfl, hf⟩ := pointsAt_iff.mp hp
    exact ⟨key, t :: q, hk, rfl, (Bool.and_eq_true _ _).mpr ⟨hs, hf⟩⟩

theorem not_pointsAt_nil (path : KeyPath) : path.pointsAt [] = false := by
  unfold pointsAt
  cases path.finalKey? <;> rfl

/-- A path that points into what another path points at starts with it. -/
theorem prefix_of_pointsAt : ∀ (as bs : List Segment) (p q : Position), pointsAt ⟨as⟩ p = true →
    pointsAt ⟨bs⟩ q = true → p <+: q → as <+: bs
  | [], bs, _, _, _, _, _ => List.nil_prefix
  | _ :: _, [], _, _, _, hb, _ => by cases hb
  | [s], [s'], p, q, ha, hb, hpq => by
    rw [pointsAt_singleton] at ha hb
    rw [ha, hb, List.cons_prefix_cons] at hpq
    obtain rfl : s = s' := Segment.text_inj (Step.member.inj hpq.1)
    exact List.prefix_rfl
  | [s], s' :: s'' :: bs, p, q, ha, hb, hpq => by
    obtain ⟨t, q, rfl, hs, -⟩ := pointsAt_cons_cons.mp hb
    rw [pointsAt_singleton.mp ha, List.cons_prefix_cons] at hpq
    rw [← hpq.1] at hs
    rw [Segment.eq_of_faces_text hs]
    exact List.prefix_append [s] (s'' :: bs)
  | s :: s₂ :: as, [s'], p, q, ha, hb, hpq => by
    obtain ⟨t, p, rfl, -, hp⟩ := pointsAt_cons_cons.mp ha
    rw [pointsAt_singleton.mp hb, List.cons_prefix_cons, List.prefix_nil] at hpq
    rw [hpq.2, not_pointsAt_nil] at hp
    cases hp
  | s :: s₂ :: as, s' :: s'' :: bs, p, q, ha, hb, hpq => by
    obtain ⟨t, p, rfl, hs, hp⟩ := pointsAt_cons_cons.mp ha
    obtain ⟨t', q, rfl, hs', hq⟩ := pointsAt_cons_cons.mp hb
    obtain ⟨rfl, htail⟩ := List.cons_prefix_cons.mp hpq
    rw [Segment.eq_of_faces hs hs', List.cons_prefix_cons]
    exact ⟨rfl, prefix_of_pointsAt (s₂ :: as) (s'' :: bs) p q hp hq htail⟩

/-- **Paths that are not related point at positions that are apart.** -/
theorem apart_of_not_related {a b : KeyPath} {p q : Position} (h : ¬ Related a b)
    (ha : a.pointsAt p = true) (hb : b.pointsAt q = true) : Apart p q :=
  ⟨fun hpq => h (Or.inl (prefix_of_pointsAt _ _ p q ha hb hpq)),
    fun hqp => h (Or.inr (prefix_of_pointsAt _ _ q p hb ha hqp))⟩

end KeyPath

/-! ### Slots after a change elsewhere -/

namespace Json

/-- The slots of a path are known from their positions. -/
theorem slots_eq_filterMap (root : Json) (path : KeyPath) :
    root.slots path = ((root.slots path).map Prod.fst).filterMap fun p =>
      (root.at? p).map fun v => (p, v) := by
  rw [List.filterMap_map]
  refine List.filterMap_some.symm.trans (List.filterMap_congr fun s hs => ?_)
  rw [Function.comp_apply, (mem_slots.mp hs).2]
  rfl

/-- **A change that is not above anything a path points at leaves the positions of its slots.** -/
theorem positions_slots_replaceAt {root v : Json} {path : KeyPath} {p : Position}
    (h : ∀ q, path.pointsAt q = true → p <+: q → p = q) :
    ((root.replaceAt p v).slots path).map Prod.fst = (root.slots path).map Prod.fst := by
  refine positions_slots_congr fun q hq => ?_
  by_cases hpq : p <+: q
  · obtain rfl := h q hq hpq
    rw [at?_replaceAt_self, Option.isSome_map]
  · rw [← isSome_outlineAt, ← isSome_outlineAt, outlineAt_replaceAt hpq]

theorem positions_slots_replaceAll {root : Json} {path : KeyPath} {edits : List (Position × Json)}
    (h : ∀ e ∈ edits, ∀ q, path.pointsAt q = true → e.1 <+: q → e.1 = q) :
    ((root.replaceAll edits).slots path).map Prod.fst = (root.slots path).map Prod.fst := by
  induction edits generalizing root with
  | nil => rfl
  | cons e edits ih =>
    rw [replaceAll_cons, ih fun e' he' => h e' (List.mem_cons_of_mem e he'),
      positions_slots_replaceAt (h e List.mem_cons_self)]

/-- **Changes that are apart from all a path points at leave its slots.** -/
theorem slots_replaceAll {root : Json} {path : KeyPath} {edits : List (Position × Json)}
    (h : ∀ e ∈ edits, ∀ q, path.pointsAt q = true → Apart e.1 q) :
    (root.replaceAll edits).slots path = root.slots path := by
  have hpositions : ((root.replaceAll edits).slots path).map Prod.fst =
      (root.slots path).map Prod.fst :=
    positions_slots_replaceAll fun e he q hq hpre => absurd hpre (h e he q hq).1
  rw [slots_eq_filterMap (root.replaceAll edits), hpositions]
  refine Eq.trans (List.filterMap_congr fun p hp => ?_) (slots_eq_filterMap root path).symm
  obtain ⟨s, hs, rfl⟩ := List.mem_map.mp hp
  rw [at?_replaceAll_of_apart fun e he => h e he s.1 (mem_slots.mp hs).1]

end Json

end Redaction
