import Redaction.Proofs.Json.Replacement

/-!
# Outlines

The outline of a value is what it is without its parts: a scalar, the length of an array, or the
keys of an object. A replacement changes no outline but those of the replaced part and of what is
in it (`outlineAt_replaceAt`). The outlines at all positions make up the value, if no object in it
has a key twice (`eq_of_outlineAt`).
-/

namespace Redaction

/-- What a value is without its parts. -/
inductive Outline
  | null
  | bool (value : Bool)
  | number (value : Number)
  | string (text : String)
  | array (length : Nat)
  | object (keys : List String)
  deriving DecidableEq, Repr

/-! ### Keys -/

namespace Members

variable {k : String} {v : Json} {ms ms' : Members}

theorem keys_set : (set k v ms).keys = ms.keys := by
  induction ms with
  | nil => rfl
  | cons m ms ih =>
    obtain ⟨k₀, v₀⟩ := m
    by_cases hk : k₀ = k
    · rw [set, if_pos hk]
      rfl
    · rw [set, if_neg hk]
      exact congrArg (k₀ :: ·) ih

theorem isSome_get? : (get? k ms).isSome = ms.keys.contains k := by
  induction ms with
  | nil => rfl
  | cons m ms ih =>
    obtain ⟨k₀, v₀⟩ := m
    by_cases hk : k₀ = k
    · simp [get?, keys, hk]
    · have hk' : ¬ k = k₀ := fun he => hk he.symm
      rw [get?, if_neg hk, ih]
      simp [keys, hk']

theorem contains_iff : contains k ms = true ↔ k ∈ keys ms := by
  rw [contains, isSome_get?, List.contains_iff_mem]

theorem mem_of_get? (h : get? k ms = some v) : (k, v) ∈ ms := by
  induction ms with
  | nil => cases h
  | cons m ms ih =>
    obtain ⟨k₀, v₀⟩ := m
    by_cases hk : k₀ = k
    · rw [get?, if_pos hk, Option.some.injEq] at h
      rw [hk, h]
      exact List.mem_cons_self
    · rw [get?, if_neg hk] at h
      exact List.mem_cons_of_mem _ (ih h)

theorem get?_of_mem (hnodup : ms.keys.Nodup) (h : (k, v) ∈ ms) : get? k ms = some v := by
  induction ms with
  | nil => cases h
  | cons m ms ih =>
    obtain ⟨hfresh, hnodup⟩ := List.nodup_cons.mp hnodup
    rcases List.mem_cons.mp h with rfl | h
    · exact if_pos rfl
    · have hk : m.1 ≠ k := by
        rintro rfl
        exact hfresh (List.mem_map.mpr ⟨(m.1, v), h, rfl⟩)
      rw [get?, if_neg hk]
      exact ih hnodup h

theorem mem_set {m : String × Json} (h : m ∈ set k v ms) : m ∈ ms ∨ m.2 = v := by
  induction ms with
  | nil => exact Or.inl h
  | cons m₀ ms ih =>
    obtain ⟨k₀, v₀⟩ := m₀
    by_cases hk : k₀ = k
    · rw [set, if_pos hk, List.mem_cons] at h
      rcases h with rfl | h
      · exact Or.inr rfl
      · exact Or.inl (List.mem_cons_of_mem _ h)
    · rw [set, if_neg hk, List.mem_cons] at h
      rcases h with rfl | h
      · exact Or.inl List.mem_cons_self
      · exact (ih h).imp_left (List.mem_cons_of_mem _)

/-- Members are told by their keys, if none is there twice, and the values under them. -/
theorem eq_of_get? (hnodup : ms.keys.Nodup) (hkeys : ms.keys = ms'.keys)
    (h : ∀ k, get? k ms = get? k ms') : ms = ms' := by
  induction ms generalizing ms' with
  | nil => exact (List.map_eq_nil_iff.mp hkeys.symm).symm
  | cons m ms ih =>
    obtain ⟨k₀, v₀⟩ := m
    cases ms' with
    | nil => cases hkeys
    | cons m' ms' =>
      obtain ⟨k₁, v₁⟩ := m'
      obtain ⟨rfl, htail⟩ := List.cons.inj hkeys
      obtain ⟨hfresh, hnodup⟩ := List.nodup_cons.mp hnodup
      have hv : v₀ = v₁ := by
        have := h k₀
        rwa [get?, if_pos rfl, get?, if_pos rfl, Option.some.injEq] at this
      have hrest : ∀ k, get? k ms = get? k ms' := by
        intro k
        by_cases hk : k₀ = k
        · -- neither rest has the key of the first member
          have hnone : ∀ l : Members, l.keys = keys ms → get? k l = none := by
            intro l hl
            rw [← Option.not_isSome_iff_eq_none, isSome_get?, hl, ← hk, List.contains_iff_mem]
            exact hfresh
          rw [hnone ms rfl, hnone ms' htail.symm]
        · have := h k
          rwa [get?, if_neg hk, get?, if_neg hk] at this
      rw [hv, ih hnodup htail hrest]

end Members

namespace Json

open Position

/-- The outline of a value. -/
def outline : Json → Outline
  | null => .null
  | bool b => .bool b
  | number n => .number n
  | string s => .string s
  | array items => .array items.length
  | object ms => .object (Members.keys ms)

/-- The outline of the part at a position, if there is one. -/
def outlineAt (root : Json) (p : Position) : Option Outline := (root.at? p).map outline

variable {root a b c v : Json} {s : Step} {p q : Position} {edits : List (Position × Json)}

theorem isSome_outlineAt : (root.outlineAt p).isSome = (root.at? p).isSome := Option.isSome_map

/-! ### The frame of a replacement -/

theorem outline_setChild : (root.setChild s v).outline = root.outline := by
  cases root <;> cases s <;> simp only [setChild, outline, List.length_set, Members.keys_set]

theorem outline_replaceAt_cons : (root.replaceAt (s :: p) v).outline = root.outline := by
  cases h : root.child? s with
  | none => rw [replaceAt_of_child?_none h]
  | some c => rw [replaceAt_cons h, outline_setChild]

/-- **A replacement leaves every outline that it does not lead to.** -/
theorem outlineAt_replaceAt (h : ¬ p <+: q) :
    (root.replaceAt p v).outlineAt q = root.outlineAt q := by
  unfold outlineAt
  rcases apart_or_prefix p q with ha | hpq | ⟨r, rfl⟩
  · rw [at?_replaceAt_of_apart ha]
  · exact absurd hpq h
  · rw [at?_replaceAt_of_append, Option.map_map]
    cases r with
    | nil =>
      rw [List.append_nil] at h
      exact absurd List.prefix_rfl h
    | cons s r =>
      exact congrArg (fun f => (root.at? q).map f) (funext fun c => outline_replaceAt_cons)

theorem outlineAt_replaceAll (h : ∀ e ∈ edits, ¬ e.1 <+: q) :
    (root.replaceAll edits).outlineAt q = root.outlineAt q := by
  induction edits generalizing root with
  | nil => rfl
  | cons e edits ih =>
    rw [replaceAll_cons, ih fun e' he' => h e' (List.mem_cons_of_mem e he'),
      outlineAt_replaceAt (h e List.mem_cons_self)]

/-! ### Values are told by their outlines -/

/-- Whether there is a part to which a step leads shows in the outline. -/
theorem isSome_child?_of_outline (h : a.outline = b.outline) :
    (a.child? s).isSome = (b.child? s).isSome := by
  cases a <;> cases b <;> simp only [outline, reduceCtorEq] at h <;> cases s <;> try rfl
  · next items items' i =>
    rw [Bool.eq_iff_iff, child?, child?, isSome_getElem?, isSome_getElem?, Outline.array.inj h]
  · next ms ms' k =>
    rw [child?, child?, Members.isSome_get?, Members.isSome_get?, Outline.object.inj h]

theorem outlineAt_of_child? (h : root.child? s = some c) :
    root.outlineAt (s :: p) = c.outlineAt p := congrArg (Option.map outline) (at?_cons h)

/-- Whether the part one step further is there shows in the outline before that step. -/
theorem isSome_at?_concat (t : Step) (h : a.outlineAt p = b.outlineAt p) :
    (a.at? (p ++ [t])).isSome = (b.at? (p ++ [t])).isSome := by
  have hchild : ∀ v : Json, (v.at? [t]).isSome = (v.child? t).isSome := by
    intro v
    cases hc : v.child? t with
    | none => rw [at?_of_child?_none hc]
    | some c =>
      rw [at?_cons hc]
      rfl
  unfold outlineAt at h
  rw [at?_append, at?_append]
  cases hv : a.at? p with
  | none =>
    rw [hv, Option.map_none, eq_comm, Option.map_eq_none_iff] at h
    rw [h]
  | some v =>
    rw [hv, Option.map_some, eq_comm, Option.map_eq_some_iff] at h
    obtain ⟨w, hw, howl⟩ := h
    rw [hw, Option.bind_some, Option.bind_some, hchild, hchild, isSome_child?_of_outline howl]

/-- Parts to which the same step leads have the same outlines again. -/
theorem child?_of_outlineAt (h : ∀ p, a.outlineAt p = b.outlineAt p) (hc : a.child? s = some c) :
    ∃ d, b.child? s = some d ∧ ∀ p, c.outlineAt p = d.outlineAt p := by
  have hd := isSome_child?_of_outline (s := s) (Option.some.inj (h []))
  rw [hc] at hd
  obtain ⟨d, hd⟩ := Option.isSome_iff_exists.mp hd.symm
  refine ⟨d, hd, fun p => ?_⟩
  rw [← outlineAt_of_child? hc, h, outlineAt_of_child? hd]

/-- **The outlines of a value in which no key is there twice make up the value.** -/
theorem eq_of_outlineAt (ha : a.WellFormed) (h : ∀ p, a.outlineAt p = b.outlineAt p) : a = b := by
  induction ha generalizing b with
  | null => cases b <;> cases h []; rfl
  | bool => cases b <;> cases h []; rfl
  | number => cases b <;> cases h []; rfl
  | string => cases b <;> cases h []; rfl
  | @array items _ ih =>
    have hroot : Outline.array items.length = b.outline := Option.some.inj (h [])
    cases b <;> simp only [outline, reduceCtorEq] at hroot
    next items' =>
    refine congrArg array (List.ext_getElem? fun i => ?_)
    have hlength := Outline.array.inj hroot
    rcases Nat.lt_or_ge i items.length with hi | hi
    · obtain ⟨d, hd, heq⟩ :=
        child?_of_outlineAt (s := .element i) h (List.getElem?_eq_getElem hi)
      rw [List.getElem?_eq_getElem hi, ih _ (List.getElem_mem hi) heq]
      exact hd.symm
    · rw [List.getElem?_eq_none hi, List.getElem?_eq_none (hlength ▸ hi)]
  | @object ms hnodup _ ih =>
    have hroot : Outline.object (Members.keys ms) = b.outline := Option.some.inj (h [])
    cases b <;> simp only [outline, reduceCtorEq] at hroot
    next ms' =>
    have hkeys := Outline.object.inj hroot
    refine congrArg object (Members.eq_of_get? hnodup hkeys fun k => ?_)
    cases hv : Members.get? k ms with
    | some v =>
      obtain ⟨d, hd, heq⟩ := child?_of_outlineAt (s := .member k) h hv
      have hvd : v = d := ih _ (Members.mem_of_get? hv) heq
      rw [hvd]
      exact hd.symm
    | none =>
      have hsome :=
        isSome_child?_of_outline (a := object ms) (b := object ms') (s := .member k) hroot
      rw [child?, child?, hv] at hsome
      exact (Option.not_isSome_iff_eq_none.mp (by rw [← hsome]; decide)).symm

/-! ### Values in which no key is there twice -/

@[simp] theorem wellFormed_array {items : List Json} :
    (array items).WellFormed ↔ ∀ v ∈ items, v.WellFormed :=
  ⟨fun h => by cases h; assumption, .array⟩

@[simp] theorem wellFormed_object {ms : Members} :
    (object ms).WellFormed ↔ ms.keys.Nodup ∧ ∀ m ∈ ms, m.2.WellFormed :=
  ⟨fun h => by cases h; exact ⟨‹_›, ‹_›⟩, fun h => .object h.1 h.2⟩

namespace WellFormed

theorem child? (h : root.WellFormed) (hc : root.child? s = some c) : c.WellFormed := by
  cases h with
  | array hitems =>
    cases s with
    | member k => cases hc
    | element i => exact hitems c (List.mem_of_getElem? hc)
  | object _ hmembers =>
    cases s with
    | element i => cases hc
    | member k => exact hmembers _ (Members.mem_of_get? hc)
  | _ => cases hc

theorem setChild (h : root.WellFormed) (hv : v.WellFormed) : (root.setChild s v).WellFormed := by
  cases h with
  | array hitems =>
    cases s with
    | member k => exact .array hitems
    | element i =>
      refine .array fun w hw => ?_
      rcases List.mem_or_eq_of_mem_set hw with hw | rfl
      · exact hitems w hw
      · exact hv
  | object hnodup hmembers =>
    cases s with
    | element i => exact .object hnodup hmembers
    | member k =>
      refine .object (by rwa [Members.keys_set]) fun m hm => ?_
      rcases Members.mem_set hm with hm | hm
      · exact hmembers m hm
      · exact hm ▸ hv
  | null => exact .null
  | bool b => exact .bool b
  | number n => exact .number n
  | string t => exact .string t

theorem replaceAt (h : root.WellFormed) (hv : v.WellFormed) : (root.replaceAt p v).WellFormed := by
  induction p generalizing root with
  | nil => exact hv
  | cons s p ih =>
    cases hc : root.child? s with
    | none => rwa [replaceAt_of_child?_none hc]
    | some c =>
      rw [replaceAt_cons hc]
      exact h.setChild (ih (h.child? hc))

theorem replaceAll (h : root.WellFormed) (he : ∀ e ∈ edits, e.2.WellFormed) :
    (root.replaceAll edits).WellFormed := by
  induction edits generalizing root with
  | nil => exact h
  | cons e edits ih =>
    exact ih (h.replaceAt (he e List.mem_cons_self)) fun e' he' =>
      he e' (List.mem_cons_of_mem e he')

end WellFormed

end Json

end Redaction
