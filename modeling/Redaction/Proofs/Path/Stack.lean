import Mathlib.Data.List.Basic
import Redaction.Proofs.Path.Resolution

/-!
# The stack between two targets

One turn of the loop takes a branch from the stack and puts the elements of an array in its place
(`turn?`); a call of `next` is as many turns as it takes to come to a target (`next_eq`). What every
turn keeps is therefore kept by every call (`next_keeps`).

What the branches on the stack hold is what is still to come after any number of calls
(`remaining_after`). What is still to be taken from the stack is its branches, each with the array
elements that the wildcards below it lead to (`due`); a turn takes the first of these and leaves the
others (`due_turn`). They are at different positions (`nodup_elementsAlong`), so none is taken
twice.
-/

namespace Redaction

/-! ### Array elements along a walk -/

/-- What a wildcard leaves on the stack; a key leaves nothing. -/
def Segment.ifWildcard {α : Type} (a : α) : Segment → List α
  | .key _ _ => []
  | .eachElement => [a]

theorem Segment.map_ifWildcard {α β : Type} (f : α → β) (a : α) (s : Segment) :
    (s.ifWildcard a).map f = s.ifWildcard (f a) := by
  cases s <;> rfl

theorem Segment.mem_ifWildcard {α : Type} {a b : α} {s : Segment} :
    b ∈ s.ifWildcard a ↔ s = .eachElement ∧ b = a := by
  cases s <;> simp [ifWildcard]

namespace Json

/-- The array elements that the wildcards of a walk face, with their positions, every element before
those below it. -/
def elementsAlong : List Segment → Json → List (Position × Json)
  | [], _ => []
  | s :: walk, root => (root.facing s).flatMap fun part =>
      s.ifWildcard ([part.1], part.2) ++
        (elementsAlong walk part.2).map fun e => (part.1 :: e.1, e.2)

/-- The position of an array element that a wildcard of the walk faces. -/
def AtWildcard (walk : List Segment) (p : Position) : Prop :=
  ∃ w, w ++ [.eachElement] <+: walk ∧ KeyPath.follows (w ++ [.eachElement]) p = true

theorem not_atWildcard_nil (p : Position) : ¬ AtWildcard [] p := by
  rintro ⟨w, hw, -⟩
  exact List.append_ne_nil_of_right_ne_nil w (List.cons_ne_nil _ _) (List.prefix_nil.mp hw)

theorem atWildcard_cons {s : Segment} {walk : List Segment} {p : Position} :
    AtWildcard (s :: walk) p ↔ ∃ t q, p = t :: q ∧ s.faces t = true ∧
      (s = .eachElement ∧ q = [] ∨ AtWildcard walk q) := by
  constructor
  · rintro ⟨w, hw, hf⟩
    cases p with
    | nil => cases w <;> cases hf
    | cons t q =>
      cases w with
      | nil =>
        obtain ⟨rfl, -⟩ := List.cons_prefix_cons.mp hw
        obtain ⟨hs, hq⟩ := Bool.and_eq_true_iff.mp hf
        refine ⟨t, q, rfl, hs, Or.inl ⟨rfl, ?_⟩⟩
        cases q with
        | nil => rfl
        | cons _ _ => cases hq
      | cons s' w =>
        obtain ⟨rfl, hw'⟩ := List.cons_prefix_cons.mp hw
        obtain ⟨hs, hq⟩ := Bool.and_eq_true_iff.mp hf
        exact ⟨t, q, rfl, hs, Or.inr ⟨w, hw', hq⟩⟩
  · rintro ⟨t, q, rfl, hs, ⟨rfl, rfl⟩ | ⟨w, hw, hq⟩⟩
    · exact ⟨[], List.cons_prefix_cons.mpr ⟨rfl, List.nil_prefix⟩,
        Bool.and_eq_true_iff.mpr ⟨hs, rfl⟩⟩
    · exact ⟨s :: w, List.cons_prefix_cons.mpr ⟨rfl, hw⟩, Bool.and_eq_true_iff.mpr ⟨hs, hq⟩⟩

/-- **Every element that a wildcard faces is there, and nothing else.** -/
theorem mem_elementsAlong {walk : List Segment} {root v : Json} {p : Position} :
    (p, v) ∈ elementsAlong walk root ↔ AtWildcard walk p ∧ root.at? p = some v := by
  induction walk generalizing root p with
  | nil => exact iff_of_false (List.not_mem_nil) (fun h => not_atWildcard_nil p h.1)
  | cons s walk ih =>
    rw [elementsAlong, List.mem_flatMap, atWildcard_cons]
    constructor
    · rintro ⟨⟨t, u⟩, hu, hp⟩
      obtain ⟨hs, hc⟩ := mem_facing.mp hu
      rcases List.mem_append.mp hp with hp | hp
      · obtain ⟨hs', he⟩ := Segment.mem_ifWildcard.mp hp
        cases he
        exact ⟨⟨t, [], rfl, hs, Or.inl ⟨hs', rfl⟩⟩, by rw [at?, hc]; rfl⟩
      · obtain ⟨⟨q, w⟩, hq, he⟩ := List.mem_map.mp hp
        cases he
        obtain ⟨hw, hat⟩ := ih.mp hq
        exact ⟨⟨t, q, rfl, hs, Or.inr hw⟩, by rw [at?, hc]; exact hat⟩
    · rintro ⟨⟨t, q, rfl, hs, hq⟩, hat⟩
      obtain ⟨u, hc, hv⟩ := Option.bind_eq_some_iff.mp hat
      refine ⟨(t, u), mem_facing.mpr ⟨hs, hc⟩, List.mem_append.mpr ?_⟩
      rcases hq with ⟨hs', rfl⟩ | hw
      · cases hv
        exact Or.inl (Segment.mem_ifWildcard.mpr ⟨hs', rfl⟩)
      · exact Or.inr (List.mem_map.mpr ⟨(q, v), ih.mpr ⟨hw, hv⟩, rfl⟩)

/-- **No element is there twice.** -/
theorem nodup_elementsAlong (walk : List Segment) (root : Json) :
    ((elementsAlong walk root).map Prod.fst).Nodup := by
  rw [List.Nodup, List.pairwise_map]
  induction walk generalizing root with
  | nil => exact List.Pairwise.nil
  | cons s walk ih =>
    rw [elementsAlong, List.pairwise_flatMap]
    -- the first step of what lies at or below a part
    have hfirst : ∀ {t : Step} {v : Json} {e : Position × Json},
        e ∈ s.ifWildcard ([t], v) ++ (elementsAlong walk v).map (fun e => (t :: e.1, e.2)) →
          e.1.head? = some t := by
      intro t v e he
      rcases List.mem_append.mp he with he | he
      · rw [(Segment.mem_ifWildcard.mp he).2]
        rfl
      · obtain ⟨e', -, rfl⟩ := List.mem_map.mp he
        rfl
    constructor
    · rintro ⟨t, v⟩ -
      rw [List.pairwise_append, List.pairwise_map]
      refine ⟨?_, (ih v).imp fun hne he => hne (List.cons.inj he).2, ?_⟩
      · cases s with
        | key k ne => exact List.Pairwise.nil
        | eachElement => exact List.pairwise_singleton _ _
      · -- an element is above those below it
        intro a ha b hb he
        obtain ⟨-, rfl⟩ := Segment.mem_ifWildcard.mp ha
        obtain ⟨⟨q, w⟩, hq, rfl⟩ := List.mem_map.mp hb
        obtain rfl : q = [] := (List.cons.inj he).2.symm
        obtain ⟨⟨u, -, hu⟩, -⟩ := mem_elementsAlong.mp hq
        cases u <;> cases hu
    · exact (pairwise_facing root s).imp fun {a b} hne x hx y hy he => by
        have hxy := (hfirst hx).symm.trans ((congrArg List.head? he).trans (hfirst hy))
        exact hne (Option.some.inj hxy)

end Json

namespace Branch

/-- The branch that an array element becomes when the part it is in was reached at index `i`. -/
def ofElement (i : Nat) (e : Position × Json) : Branch := ⟨e.2, i + e.1.length⟩

/-- The branches that a branch forks into, every one before its own. -/
def forks (walk : List Segment) (b : Branch) : List Branch :=
  (b.node.elementsAlong (walk.drop b.index)).map (ofElement b.index)

theorem map_ofElement_elementsAlong (s : Segment) (walk : List Segment) (i : Nat) (node : Json) :
    (node.elementsAlong (s :: walk)).map (ofElement i) = (node.facing s).flatMap fun e =>
      s.ifWildcard ⟨e.2, i + 1⟩ ++ (e.2.elementsAlong walk).map (ofElement (i + 1)) := by
  rw [Json.elementsAlong, List.map_flatMap]
  refine List.flatMap_congr fun part _ => ?_
  rw [List.map_append, Segment.map_ifWildcard, List.map_map]
  refine congrArg₂ _ rfl (List.map_congr_left fun e _ => ?_)
  show Branch.mk e.2 (i + (e.1.length + 1)) = Branch.mk e.2 (i + 1 + e.1.length)
  rw [Nat.add_assoc, Nat.add_comm 1]

/-- What is taken from the stack after a branch, before the branches below it. -/
theorem forks_eq (walk : List Segment) (b : Branch) :
    match follow (walk.drop b.index) b.index b.node with
    | .forks items j => b.forks walk = (items.map (⟨·, j⟩)).flatMap fun c => c :: c.forks walk
    | _ => b.forks walk = [] := by
  have h := follow_flatMap (fun walk i node => (node.elementsAlong walk).map (ofElement i))
    (fun s i v => s.ifWildcard ⟨v, i⟩) map_ofElement_elementsAlong (fun _ _ _ _ => rfl)
    (walk.drop b.index) b.index b.node
  split
  · next items j hf =>
    rw [hf] at h
    obtain ⟨hlt, -, h⟩ := h
    have hd : b.index + (j - b.index) = j := by omega
    rw [List.drop_drop, hd] at h
    rw [forks, h, List.flatMap_map]
    rfl
  · next hforks =>
    split at h
    · exact h
    · next items j hf => exact absurd hf (hforks items j)
    · exact h

end Branch

namespace Targets

variable {t t' : Targets} {b : Branch} {found : Option Members}

/-! ### One turn of the loop -/

/-- The branch that is taken from the stack, the target if that is one, and what is to come. -/
def turn? : Targets → Option (Branch × Option Members × Targets)
  | ⟨_, _, []⟩ => none
  | ⟨walk, key, b :: pending⟩ =>
    match Branch.follow (walk.drop b.index) b.index b.node with
    | .arrived (.object ms) =>
      some (b, if Members.contains key ms then some ms else none, ⟨walk, key, pending⟩)
    | .forks items index => some (b, none, ⟨walk, key, items.map (⟨·, index⟩) ++ pending⟩)
    | _ => some (b, none, ⟨walk, key, pending⟩)

/-- What a turn does to the stack. -/
theorem turn?_cases (h : turn? t = some (b, found, t')) : ∃ pending,
    t = ⟨t.walk, t.key, b :: pending⟩ ∧
      match Branch.follow (t.walk.drop b.index) b.index b.node with
      | .forks items j => t' = ⟨t.walk, t.key, items.map (⟨·, j⟩) ++ pending⟩
      | _ => t' = ⟨t.walk, t.key, pending⟩ := by
  unfold turn? at h
  split at h
  · cases h
  · next walk key b' pending =>
    split at h
    · next hf =>
      cases h
      exact ⟨pending, rfl, by rw [hf]⟩
    · next hf =>
      cases h
      exact ⟨pending, rfl, by rw [hf]⟩
    · next hforks =>
      cases h
      refine ⟨pending, rfl, ?_⟩
      dsimp only
      split
      · next items j hf => exact absurd hf (hforks items j)
      · rfl

theorem turn?_eq_none : turn? t = none ↔ t.pending = [] := by
  unfold turn?
  split
  · exact iff_of_true rfl rfl
  · refine iff_of_false ?_ (List.cons_ne_nil _ _)
    split <;> exact Option.some_ne_none _

theorem turn?_weight (h : turn? t = some (b, found, t')) :
    Branch.weight t'.pending < Branch.weight t.pending := by
  obtain ⟨pending, ht, ht'⟩ := turn?_cases h
  rw [ht]
  split at ht'
  · next items j hf =>
    rw [ht']
    exact Nat.lt_trans (Branch.weight_forks items j pending)
      (Nat.add_lt_add_right (Branch.sizeOf_forks hf) _)
  · rw [ht']
    exact Branch.weight_tail b pending

theorem walk_turn (h : turn? t = some (b, found, t')) : t'.walk = t.walk ∧ t'.key = t.key := by
  obtain ⟨_, -, h⟩ := turn?_cases h
  split at h <;> rw [h] <;> exact ⟨rfl, rfl⟩

/-- No branch on the stack is past the end of the walk. -/
def Within (t : Targets) : Prop := ∀ b ∈ t.pending, b.index ≤ t.walk.length

theorem within_turn (h : turn? t = some (b, found, t')) (ht : t.Within) : t'.Within := by
  obtain ⟨pending, hp, h⟩ := turn?_cases h
  rw [Within, hp] at ht
  obtain ⟨hb, hpending⟩ := List.forall_mem_cons.mp ht
  split at h
  · next items j hf =>
    have hj : j ≤ t.walk.length := by
      have hlength := Branch.follow_targetsAlong t.key (t.walk.drop b.index) b.index b.node
      rw [hf] at hlength
      obtain ⟨-, hle, -⟩ := hlength
      rw [List.length_drop] at hle
      dsimp only at hb
      omega
    rw [h]
    intro c hc
    rcases List.mem_append.mp hc with hc | hc
    · obtain ⟨v, -, rfl⟩ := List.mem_map.mp hc
      exact hj
    · exact hpending c hc
  · rw [h]
    exact hpending

/-- **A call turns until it comes to a target.** -/
theorem next_eq (t : Targets) : next t = match turn? t with
    | none => (none, t)
    | some (_, some ms, t') => (some ms, t')
    | some (_, none, t') => next t' := by
  fun_cases next t with
  | case1 => rw [turn?]
  | case2 walk key b pending ms hf hc =>
    have h : turn? ⟨walk, key, b :: pending⟩ = some (b, some ms, ⟨walk, key, pending⟩) := by
      rw [turn?, hf]
      dsimp only
      rw [if_pos hc]
    rw [h]
  | case3 walk key b pending ms hf hc =>
    have h : turn? ⟨walk, key, b :: pending⟩ = some (b, none, ⟨walk, key, pending⟩) := by
      rw [turn?, hf]
      dsimp only
      rw [if_neg hc]
    rw [h]
  | case4 walk key b pending items j hf => rw [turn?, hf]
  | case5 walk key b pending hobject hforks =>
    have h : turn? ⟨walk, key, b :: pending⟩ = some (b, none, ⟨walk, key, pending⟩) := by
      rw [turn?]
      split
      · next ms hf => exact absurd hf (hobject ms)
      · next items j hf => exact absurd hf (hforks items j)
      · rfl
    rw [h]

/-- The branches that the next call takes from the stack. -/
def popped (t : Targets) : List Branch :=
  match _h : turn? t with
  | none => []
  | some (b, some _, _) => [b]
  | some (b, none, t') => b :: popped t'
termination_by Branch.weight t.pending
decreasing_by exact turn?_weight _h

/-- **What every turn keeps, a call keeps.** -/
theorem next_keeps {P : Targets → Prop}
    (hturn : ∀ {t b found t'}, turn? t = some (b, found, t') → P t → P t') (t : Targets)
    (h : P t) : P (next t).2 := by
  fun_induction popped t with
  | case1 t hn =>
    rw [next_eq, hn]
    exact h
  | case2 t b ms t' hn =>
    rw [next_eq, hn]
    exact hturn hn h
  | case3 t b t' hn ih =>
    rw [next_eq, hn]
    exact ih (hturn hn h)

/-! ### One call after the other -/

/-- What is to come after `n` more calls. -/
def after : Nat → Targets → Targets
  | 0, t => t
  | n + 1, t => after n (next t).2

theorem after_succ (n : Nat) (t : Targets) : after (n + 1) t = (next (after n t)).2 := by
  induction n generalizing t with
  | zero => rfl
  | succ n ih => rw [after, ih, after]

theorem after_keeps {P : Targets → Prop}
    (hturn : ∀ {t b found t'}, turn? t = some (b, found, t') → P t → P t') (n : Nat) (h : P t) :
    P (after n t) := by
  induction n generalizing t with
  | zero => exact h
  | succ n ih => exact ih (next_keeps hturn t h)

theorem walk_after (n : Nat) (t : Targets) : (after n t).walk = t.walk :=
  after_keeps (P := fun s => s.walk = t.walk) (fun h hs => (walk_turn h).1.trans hs) n rfl

theorem key_after (n : Nat) (t : Targets) : (after n t).key = t.key :=
  after_keeps (P := fun s => s.key = t.key) (fun h hs => (walk_turn h).2.trans hs) n rfl

theorem within_after (n : Nat) (h : t.Within) : (after n t).Within :=
  after_keeps within_turn n h

/-! ### What is still to come -/

theorem next_of_pending_nil (h : t.pending = []) : next t = (none, t) := by
  rw [next_eq, turn?_eq_none.mpr h]

theorem pending_of_next_none (h : (next t).1 = none) : (next t).2.pending = [] := by
  fun_induction popped t with
  | case1 t hn =>
    rw [next_eq, hn]
    exact turn?_eq_none.mp hn
  | case2 t b ms t' hn =>
    rw [next_eq, hn] at h
    cases h
  | case3 t b t' hn ih =>
    rw [next_eq, hn] at h ⊢
    exact ih h

theorem after_of_pending_nil (h : t.pending = []) (n : Nat) : after n t = t := by
  induction n with
  | zero => rfl
  | succ n ih => rw [after, next_of_pending_nil h, ih]

/-- A call yields the first target that is still to come and leaves the others. -/
theorem remaining_next (t : Targets) :
    (next t).1 = t.remaining.head? ∧ (next t).2.remaining = t.remaining.tail := by
  have h := next_remaining t
  rcases hn : next t with ⟨_ | ms, t'⟩
  · have hp := pending_of_next_none (congrArg Prod.fst hn)
    rw [hn] at h hp
    rw [h, remaining, hp]
    exact ⟨rfl, rfl⟩
  · rw [hn] at h
    rw [h]
    exact ⟨rfl, rfl⟩

/-- **After `n` calls the stack holds what comes after the first `n` targets.** -/
theorem remaining_after (n : Nat) (t : Targets) : (after n t).remaining = t.remaining.drop n := by
  induction n generalizing t with
  | zero => rfl
  | succ n ih => rw [after, ih, (remaining_next t).2, List.drop_tail]

/-- A call yields the next target until there is none. -/
theorem next_after (n : Nat) (t : Targets) : (next (after n t)).1 = t.remaining[n]? := by
  rw [(remaining_next _).1, remaining_after, List.head?_drop]

/-- **When the targets are at an end, so is the stack.** -/
theorem pending_after {n : Nat} (h : t.remaining.length < n) : (after n t).pending = [] := by
  obtain ⟨m, rfl⟩ := Nat.exists_eq_succ_of_ne_zero (Nat.ne_zero_of_lt h)
  rw [after_succ]
  refine pending_of_next_none ?_
  rw [next_after, List.getElem?_eq_none (Nat.le_of_lt_succ h)]

/-- **Taking targets is calling so often.** -/
theorem take_eq (n : Nat) (t : Targets) : take n t = (t.remaining.take n, after n t) := by
  induction n generalizing t with
  | zero => rfl
  | succ n ih =>
    have h := next_remaining t
    rw [take, after]
    rcases hn : next t with ⟨_ | ms, t'⟩
    · have hp := pending_of_next_none (congrArg Prod.fst hn)
      rw [hn] at h hp
      rw [h, after_of_pending_nil hp]
      rfl
    · rw [hn] at h
      rw [h]
      dsimp only
      rw [ih t']
      rfl

/-! ### What is still to be taken from the stack -/

/-- The branches that are still to be taken from the stack. -/
def due (t : Targets) : List Branch := t.pending.flatMap fun b => b :: b.forks t.walk

/-- **A turn takes the first of the branches that are due and leaves the others.** -/
theorem due_turn (h : turn? t = some (b, found, t')) : t.due = b :: t'.due := by
  obtain ⟨pending, ht, ht'⟩ := turn?_cases h
  have hdue : t.due = b :: (b.forks t.walk ++ due ⟨t.walk, t.key, pending⟩) := by
    rw [ht]
    rfl
  have hf := Branch.forks_eq t.walk b
  rw [hdue]
  split at ht'
  · next items j hfollow =>
    rw [hfollow] at hf
    rw [hf, ht', due, due, List.flatMap_append]
  · next hforks =>
    split at hf
    · next items j hfollow => exact absurd hfollow (hforks items j)
    · rw [hf, ht', List.nil_append]

theorem due_next (t : Targets) : t.due = popped t ++ (next t).2.due := by
  fun_induction popped t with
  | case1 t hn =>
    rw [next_eq, hn]
    rfl
  | case2 t b ms t' hn =>
    rw [next_eq, hn, due_turn hn]
    rfl
  | case3 t b t' hn ih =>
    rw [next_eq, hn, due_turn hn, List.cons_append]
    exact congrArg (b :: ·) ih

/-- The branches that the next `n` calls take from the stack. -/
def poppedBy : Nat → Targets → List Branch
  | 0, _ => []
  | n + 1, t => popped t ++ poppedBy n (next t).2

/-- **What `n` calls take from the stack and what is then due was due before.** -/
theorem due_after (n : Nat) (t : Targets) : t.due = poppedBy n t ++ (after n t).due := by
  induction n generalizing t with
  | zero => rfl
  | succ n ih => rw [poppedBy, after, List.append_assoc, ← ih, ← due_next]

/-! ### A walk from its start -/

theorem of_concat (root : Json) (walk : List Segment) (last : Segment) :
    of root ⟨walk ++ [last]⟩ = ⟨walk, last.text, [⟨root, 0⟩]⟩ := by
  have hkey : KeyPath.finalKey? ⟨walk ++ [last]⟩ = some last.text := by
    rw [KeyPath.finalKey?, List.getLast?_concat]
    rfl
  have hwalk : KeyPath.walk ⟨walk ++ [last]⟩ = walk := List.dropLast_concat
  rw [of, hkey, hwalk]

/-- What a branch holds is what a walk of its own finds from its index on. -/
theorem toList_of_drop {walk : List Segment} {last : Segment} (h : b.index ≤ walk.length) :
    (of b.node ⟨(walk ++ [last]).drop b.index⟩).toList = b.targets last.text walk := by
  rw [List.drop_append_of_le_length h, of_concat, toList_eq_remaining]
  exact List.append_nil _

/-- The branches that are due at the start, by their positions. -/
theorem due_of (root : Json) (walk : List Segment) (last : Segment) :
    (of root ⟨walk ++ [last]⟩).due.map (fun b => (some b.node, b.index)) =
      ([] :: (root.elementsAlong walk).map Prod.fst).map fun p => (root.at? p, p.length) := by
  have hdue : (of root ⟨walk ++ [last]⟩).due =
      ⟨root, 0⟩ :: (root.elementsAlong walk).map (Branch.ofElement 0) := by
    rw [of_concat]
    exact List.append_nil _
  rw [hdue, List.map_cons, List.map_cons, List.map_map, List.map_map]
  refine congrArg₂ _ rfl (List.map_congr_left fun e he => ?_)
  show (some e.2, 0 + e.1.length) = (root.at? e.1, e.1.length)
  rw [(Json.mem_elementsAlong.mp he).2, Nat.zero_add]

/-- **The stack holds what is still to come, after any number of calls.** No branch on it is past the
end of the walk. Walks of their own from the branches, from the top to the bottom, find the targets
that the calls so far have not yielded. After the last of them the stack is empty and stays so.
Hence some targets and then the rest are all targets of one walk. Besides the event itself a walk
takes every array element that a wildcard faces from the stack, and each of them once. -/
theorem stack_after (root : Json) (walk : List Segment) (last : Segment) :
    let path : KeyPath := ⟨walk ++ [last]⟩
    let start := of root path
    (∀ n, (∀ b ∈ (after n start).pending, b.index ≤ walk.length) ∧
      (after n start).pending.flatMap
        (fun b => (of b.node ⟨path.segments.drop b.index⟩).toList) = start.toList.drop n ∧
      (next (after n start)).1 = start.toList[n]?) ∧
    (∀ n, (next (after n start)).1 = none → ∀ m, n < m →
      (after m start).pending = [] ∧ (next (after m start)).1 = none) ∧
    (∀ k, take k start = (start.toList.take k, after k start) ∧
      (take k start).1 ++ (take k start).2.toList = start.toList) ∧
    ∃ elements : List Position, elements.Nodup ∧
      (∀ p, p ∈ elements ↔ Json.AtWildcard walk p ∧ (root.at? p).isSome) ∧
      ∀ n, let taken := (poppedBy n start).map fun b => (some b.node, b.index)
        let due := ([] :: elements).map fun p => (root.at? p, p.length)
        taken <+: due ∧ (start.toList.length < n → taken = due) := by
  intro path start
  have hstart : start = ⟨walk, last.text, [⟨root, 0⟩]⟩ := of_concat root walk last
  have hlist : start.toList = start.remaining := toList_eq_remaining start
  have hindex : ∀ n, ∀ b ∈ (after n start).pending, b.index ≤ walk.length := by
    intro n
    have hone : start.Within := hstart ▸ List.forall_mem_singleton.mpr (Nat.zero_le _)
    have hwithin := within_after n hone
    rwa [Within, walk_after, show start.walk = walk from hstart ▸ rfl] at hwithin
  rw [hlist]
  refine ⟨fun n => ⟨hindex n, ?_, next_after n start⟩, fun n hn m hm => ?_, fun k => ?_,
    (root.elementsAlong walk).map Prod.fst, Json.nodup_elementsAlong walk root, fun p => ?_,
    fun n => ?_⟩
  · rw [List.flatMap_congr fun b hb => toList_of_drop (hindex n b hb), ← remaining_after,
      remaining, walk_after, key_after, hstart]
  · rw [next_after, List.getElem?_eq_none_iff] at hn
    have hp := pending_after (Nat.lt_of_le_of_lt hn hm)
    exact ⟨hp, congrArg Prod.fst (next_of_pending_nil hp)⟩
  · rw [take_eq, toList_eq_remaining, remaining_after]
    exact ⟨rfl, List.take_append_drop k _⟩
  · rw [List.mem_map, Option.isSome_iff_exists]
    constructor
    · rintro ⟨⟨q, v⟩, hv, rfl⟩
      obtain ⟨hw, hat⟩ := Json.mem_elementsAlong.mp hv
      exact ⟨hw, v, hat⟩
    · rintro ⟨hw, v, hat⟩
      exact ⟨(p, v), Json.mem_elementsAlong.mpr ⟨hw, hat⟩, rfl⟩
  · intro taken due
    have hsplit : due = taken ++ (after n start).due.map fun b => (some b.node, b.index) := by
      rw [← List.map_append, ← due_after]
      exact (due_of root walk last).symm
    refine ⟨hsplit ▸ List.prefix_append _ _, fun hn => ?_⟩
    rw [hsplit, Targets.due, pending_after hn]
    exact (List.append_nil _).symm

/-- Two targets are taken, the first of them from an array in an array, and then the rest. -/
theorem stack_after_two :
    let root : Json := .array [.array [.object [("k", .null)], .null], .object [],
      .array [.object [("k", .bool true)], .object [("k", .bool false)]]]
    let start := of root (.parse "[].[].k")
    (take 2 start).1 = [[("k", .null)], [("k", .bool true)]] ∧
      (take 2 start).2.toList = [[("k", .bool false)]] ∧
      (next (after 1 start)).1 = some [("k", .bool true)] ∧
      (after 1 start).pending.map Branch.index = [2, 1, 1] ∧ (after 4 start).pending = [] := by
  intro root start
  have hlist : start.toList = [[("k", .null)], [("k", .bool true)], [("k", .bool false)]] := by
    rw [toList_of]
    rfl
  obtain ⟨hafter, hdone, htake, -⟩ :=
    stack_after root [.eachElement, .eachElement] (.key "k" (by decide))
  have hnext : ∀ n, (next (after n start)).1 = start.toList[n]? := fun n => (hafter n).2.2
  have hfirst : (take 2 start).1 = start.toList.take 2 := congrArg Prod.fst (htake 2).1
  have hall : (take 2 start).1 ++ (take 2 start).2.toList = start.toList := (htake 2).2
  rw [hlist] at hfirst hall
  rw [hfirst] at hall
  refine ⟨hfirst, List.append_cancel_left hall, ?_, ?_, (hdone 3 ?_ 4 (by decide)).1⟩
  · rw [hnext, hlist]
    rfl
  · decide +kernel
  · refine (hnext 3).trans ?_
    rw [hlist]
    rfl

end Targets

end Redaction
