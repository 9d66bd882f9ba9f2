import Redaction.Json.Basic
import Redaction.Path.Basic

/-!
# Targets of a path

The targets of a path are the objects that its walk leads to and that hold its final key. They
come one at a time: the branches still to be followed are kept on a stack, the elements of an array
in their order, so that the targets come in document order. A missing key, a scalar, or a wildcard
on something that is no array ends a branch.
-/

namespace Redaction

/-- A branch to be followed from the segment with this index on. -/
structure Branch where
  node : Json
  index : Nat
  deriving Repr

/-- The targets that are still to come. -/
structure Targets where
  walk : List Segment
  key : String
  pending : List Branch
  deriving Repr

namespace Branch

/-- Where a branch leads without a choice. -/
inductive Outcome
  /-- The walk is at its end. -/
  | arrived (node : Json)
  /-- The wildcard before this index stands at an array. -/
  | forks (items : List Json) (index : Nat)
  | deadEnd

/-- Follows the segments from `index` on. -/
def follow : List Segment → Nat → Json → Outcome
  | [], _, node => .arrived node
  | .key k _ :: walk, index, .object ms =>
    match Members.get? k ms with
    | some child => follow walk (index + 1) child
    | none => .deadEnd
  | .eachElement :: _, index, .array items => .forks items (index + 1)
  | _, _, _ => .deadEnd

end Branch

/-! ### Forks are smaller than the branch they come from -/

theorem Members.sizeOf_get? {ms : Members} {k : String} {v : Json} (h : get? k ms = some v) :
    sizeOf v < sizeOf ms := by
  induction ms with
  | nil => simp [get?] at h
  | cons m ms ih =>
    obtain ⟨k', v'⟩ := m
    simp only [get?] at h
    split at h
    · simp only [Option.some.injEq] at h
      subst h
      simp only [List.cons.sizeOf_spec, Prod.mk.sizeOf_spec]
      omega
    · have := ih h
      simp only [List.cons.sizeOf_spec]
      omega

theorem Branch.sizeOf_forks {walk : List Segment} {i j : Nat} {node : Json} {items : List Json}
    (h : follow walk i node = .forks items j) : sizeOf items < sizeOf node := by
  induction walk generalizing i node with
  | nil => simp [follow] at h
  | cons s walk ih =>
    unfold follow at h
    split at h
    · simp at h
    · next ms heq =>
      split at h
      · next child hc =>
        simp only [List.cons.injEq] at heq
        obtain ⟨_, rfl⟩ := heq
        have h1 := ih h
        have h2 := Members.sizeOf_get? hc
        simp only [Json.object.sizeOf_spec]
        omega
      · simp at h
    · simp only [Outcome.forks.injEq] at h
      obtain ⟨rfl, _⟩ := h
      simp only [Json.array.sizeOf_spec]
      omega
    · simp at h

/-- The size of the branches on a stack. -/
noncomputable def Branch.weight : List Branch → Nat
  | [] => 0
  | b :: pending => sizeOf b.node + weight pending

theorem Branch.weight_forks (items : List Json) (index : Nat) (pending : List Branch) :
    weight (items.map (⟨·, index⟩) ++ pending) < sizeOf items + weight pending := by
  induction items with
  | nil => simp
  | cons v vs ih =>
    simp only [weight, List.map_cons, List.cons_append, List.cons.sizeOf_spec] at ih ⊢
    omega

theorem Branch.weight_tail (b : Branch) (pending : List Branch) :
    weight pending < weight (b :: pending) := by
  have : 0 < sizeOf b.node := by
    cases b.node <;> simp only [Json.null.sizeOf_spec, Json.bool.sizeOf_spec,
      Json.number.sizeOf_spec, Json.string.sizeOf_spec, Json.array.sizeOf_spec,
      Json.object.sizeOf_spec] <;> omega
  simp only [weight]
  omega

namespace Targets

/-- The targets of a path in an event; the path without segments has none. -/
def of (root : Json) (path : KeyPath) : Targets :=
  match path.finalKey? with
  | some key => ⟨path.walk, key, [⟨root, 0⟩]⟩
  | none => ⟨[], "", []⟩

/-- The next target, if there is one, and what is to come after it. -/
def next (t : Targets) : Option Members × Targets :=
  match t with
  | ⟨_, _, []⟩ => (none, t)
  | ⟨walk, key, b :: pending⟩ =>
    match _h : Branch.follow (walk.drop b.index) b.index b.node with
    | .arrived (.object ms) =>
      if Members.contains key ms then (some ms, ⟨walk, key, pending⟩)
      else next ⟨walk, key, pending⟩
    | .forks items index => next ⟨walk, key, items.map (⟨·, index⟩) ++ pending⟩
    | _ => next ⟨walk, key, pending⟩
termination_by Branch.weight t.pending
decreasing_by
  · exact Branch.weight_tail b pending
  · have h1 := Branch.sizeOf_forks _h
    have h2 := Branch.weight_forks items index pending
    have h3 : Branch.weight (b :: pending) = sizeOf b.node + Branch.weight pending := rfl
    omega
  · exact Branch.weight_tail b pending

theorem next_weight {t : Targets} {ms : Members} (h : (next t).1 = some ms) :
    Branch.weight (next t).2.pending < Branch.weight t.pending := by
  fun_induction next t with
  | case1 => simp at h
  | case2 _ _ b pending => exact Branch.weight_tail b pending
  | case3 walk key b pending _ _ _ ih => exact Nat.lt_trans (ih h) (Branch.weight_tail b pending)
  | case4 walk key b pending items index hf ih =>
    have h1 := Branch.sizeOf_forks hf
    have h2 := Branch.weight_forks items index pending
    have h3 : Branch.weight (b :: pending) = sizeOf b.node + Branch.weight pending := rfl
    have h4 : Branch.weight (items.map (⟨·, index⟩) ++ pending) < Branch.weight (b :: pending) := by
      omega
    exact Nat.lt_trans (ih h) h4
  | case5 walk key b pending _ _ ih => exact Nat.lt_trans (ih h) (Branch.weight_tail b pending)

/-- All targets that are to come. -/
def toList (t : Targets) : List Members :=
  match _h : (next t).1 with
  | some ms => ms :: toList (next t).2
  | none => []
termination_by Branch.weight t.pending
decreasing_by exact next_weight _h

/-- The next `n` targets and what is to come after them. -/
def take : Nat → Targets → List Members × Targets
  | 0, t => ([], t)
  | n + 1, t =>
    match next t with
    | (some ms, t) =>
      let (taken, t) := take n t
      (ms :: taken, t)
    | (none, t) => ([], t)

end Targets

end Redaction
