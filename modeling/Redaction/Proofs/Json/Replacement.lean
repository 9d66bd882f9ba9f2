import Redaction.Path.Position

/-!
# Replacing the parts of a value

`Json.replaceAt` puts a value in the place of the part at a position; a value without such a part
stays as it is. Two positions are apart if neither leads through the other. Replacements at
positions that are apart do not see each other: they commute (`replaceAt_comm`), and the one leaves
what is found at the other (`at?_replaceAt_of_apart`).
-/

namespace Redaction

/-! ### Members under other values -/

namespace Members

variable {k k' : String} {v w : Json} {ms : Members}

theorem get?_set_self (h : (get? k ms).isSome) : get? k (set k v ms) = some v := by
  induction ms with
  | nil => simp [get?] at h
  | cons m ms ih =>
    obtain ⟨k₀, v₀⟩ := m
    by_cases hk : k₀ = k
    · simp [set, get?, hk]
    · rw [get?, if_neg hk] at h
      rw [set, if_neg hk, get?, if_neg hk]
      exact ih h

theorem get?_set_of_ne (h : k ≠ k') : get? k (set k' v ms) = get? k ms := by
  induction ms with
  | nil => rfl
  | cons m ms ih =>
    obtain ⟨k₀, v₀⟩ := m
    by_cases hk : k₀ = k'
    · have hne : k₀ ≠ k := fun he => h (he.symm.trans hk)
      rw [set, if_pos hk, get?, get?, if_neg hne, if_neg hne]
    · rw [set, if_neg hk, get?, get?, ih]

theorem set_get? (h : get? k ms = some v) : set k v ms = ms := by
  induction ms with
  | nil => rfl
  | cons m ms ih =>
    obtain ⟨k₀, v₀⟩ := m
    by_cases hk : k₀ = k
    · rw [get?, if_pos hk, Option.some.injEq] at h
      rw [set, if_pos hk, h]
    · rw [get?, if_neg hk] at h
      rw [set, if_neg hk, ih h]

theorem set_set : set k w (set k v ms) = set k w ms := by
  induction ms with
  | nil => rfl
  | cons m ms ih =>
    obtain ⟨k₀, v₀⟩ := m
    by_cases hk : k₀ = k
    · simp [set, hk]
    · simp only [set, if_neg hk, ih]

theorem set_comm (h : k ≠ k') : set k v (set k' w ms) = set k' w (set k v ms) := by
  induction ms with
  | nil => rfl
  | cons m ms ih =>
    obtain ⟨k₀, v₀⟩ := m
    by_cases hk : k₀ = k
    · have hne : k₀ ≠ k' := fun he => h (hk.symm.trans he)
      simp only [set, if_pos hk, if_neg hne]
    · by_cases hk' : k₀ = k'
      · simp only [set, if_neg hk, if_pos hk']
      · simp only [set, if_neg hk, if_neg hk', ih]

end Members

/-! ### Positions that are apart -/

namespace Position

/-- Neither position leads through the other. -/
def Apart (p q : Position) : Prop := ¬ p <+: q ∧ ¬ q <+: p

variable {p q : Position} {a b : Step}

theorem Apart.symm (h : Apart p q) : Apart q p := ⟨h.2, h.1⟩

theorem apart_cons : Apart (a :: p) (b :: q) ↔ a ≠ b ∨ Apart p q := by
  unfold Apart
  rw [List.cons_prefix_cons, List.cons_prefix_cons]
  by_cases hab : a = b
  · subst hab
    simp
  · have hba : ¬ b = a := fun h => hab h.symm
    simp [hab, hba]

theorem apart_of_length_eq (hl : p.length = q.length) (hne : p ≠ q) : Apart p q :=
  ⟨fun h => hne (h.eq_of_length hl), fun h => hne (h.eq_of_length hl.symm).symm⟩

theorem Apart.append_left (h : Apart p q) (r : Position) : Apart (p ++ r) q := by
  refine ⟨fun h1 => h.1 ((List.prefix_append p r).trans h1), fun h1 => ?_⟩
  rcases List.prefix_or_prefix_of_prefix h1 (List.prefix_append p r) with h2 | h2
  · exact h.2 h2
  · exact h.1 h2

theorem apart_or_prefix (p q : Position) : Apart p q ∨ p <+: q ∨ q <+: p := by
  unfold Apart
  by_cases h : p <+: q
  · exact Or.inr (Or.inl h)
  · by_cases h' : q <+: p
    · exact Or.inr (Or.inr h')
    · exact Or.inl ⟨h, h'⟩

end Position

namespace Json

open Position

/-! ### One step -/

/-- Another value in the place of the part to which one step leads. -/
def setChild : Json → Step → Json → Json
  | object ms, .member key, v => object (Members.set key v ms)
  | array items, .element i, v => array (items.set i v)
  | root, _, _ => root

variable {root c v w : Json} {s t : Step} {p q : Position}

theorem child?_setChild_self (h : root.child? s = some c) :
    (root.setChild s v).child? s = some v := by
  cases root <;> cases s <;> simp only [child?, reduceCtorEq] at h
  · next items i =>
    have hi := (List.getElem?_eq_some_iff.mp h).1
    simp [setChild, child?, hi]
  · exact Members.get?_set_self (by rw [h]; rfl)

theorem child?_setChild_of_ne (h : s ≠ t) : (root.setChild t v).child? s = root.child? s := by
  cases root <;> cases t <;> try rfl
  · next items i =>
    cases s with
    | member k => rfl
    | element j =>
      have hne : i ≠ j := fun he => h (by rw [he])
      simp [setChild, child?, List.getElem?_set_ne hne]
  · next ms k =>
    cases s with
    | element j => rfl
    | member k' =>
      have hne : k' ≠ k := fun he => h (by rw [he])
      exact Members.get?_set_of_ne hne

theorem setChild_child? (h : root.child? s = some v) : root.setChild s v = root := by
  cases root <;> cases s <;> simp only [child?, reduceCtorEq] at h
  · next items i =>
    obtain ⟨hi, rfl⟩ := List.getElem?_eq_some_iff.mp h
    rw [setChild, List.set_getElem_self]
  · rw [setChild, Members.set_get? h]

theorem setChild_setChild : (root.setChild s v).setChild s w = root.setChild s w := by
  cases root <;> cases s <;> simp only [setChild, Members.set_set, List.set_set]

theorem setChild_comm (h : s ≠ t) :
    (root.setChild t w).setChild s v = (root.setChild s v).setChild t w := by
  cases root <;> cases s <;> cases t <;> try rfl
  · next items i j =>
    have hne : j ≠ i := fun he => h (by rw [he])
    simp only [setChild, List.set_comm _ _ hne]
  · next ms k k' =>
    have hne : k ≠ k' := fun he => h (by rw [he])
    simp only [setChild, Members.set_comm hne]

/-! ### One position -/

/-- Another value in the place of the part at a position, if there is one. -/
def replaceAt (root : Json) : Position → Json → Json
  | [], v => v
  | s :: p, v =>
    match root.child? s with
    | some c => root.setChild s (c.replaceAt p v)
    | none => root

theorem replaceAt_cons (h : root.child? s = some c) :
    root.replaceAt (s :: p) v = root.setChild s (c.replaceAt p v) := by
  rw [replaceAt, h]

theorem replaceAt_of_child?_none (h : root.child? s = none) : root.replaceAt (s :: p) v = root := by
  rw [replaceAt, h]

theorem at?_cons (h : root.child? s = some c) : root.at? (s :: p) = c.at? p := by
  rw [at?, h]
  rfl

theorem at?_of_child?_none (h : root.child? s = none) : root.at? (s :: p) = none := by
  rw [at?, h]
  rfl

/-- The part at the position of a replacement is the new one. -/
theorem at?_replaceAt_append (root : Json) (p q : Position) (v : Json) :
    (root.replaceAt p v).at? (p ++ q) = (root.at? p).bind fun _ => v.at? q := by
  induction p generalizing root with
  | nil => rfl
  | cons s p ih =>
    rw [List.cons_append]
    cases h : root.child? s with
    | none => rw [replaceAt_of_child?_none h, at?_of_child?_none h, at?_of_child?_none h]; rfl
    | some c => rw [replaceAt_cons h, at?_cons (child?_setChild_self h), at?_cons h, ih]

theorem at?_replaceAt_self (root : Json) (p : Position) (v : Json) :
    (root.replaceAt p v).at? p = (root.at? p).map fun _ => v := by
  have h := at?_replaceAt_append root p [] v
  rw [List.append_nil] at h
  rw [h]
  cases root.at? p <;> rfl

/-- A part around the position of a replacement has the replacement in it. -/
theorem at?_replaceAt_of_append (root : Json) (p q : Position) (v : Json) :
    (root.replaceAt (p ++ q) v).at? p = (root.at? p).map fun c => c.replaceAt q v := by
  induction p generalizing root with
  | nil => rfl
  | cons s p ih =>
    rw [List.cons_append]
    cases h : root.child? s with
    | none => rw [replaceAt_of_child?_none h, at?_of_child?_none h]; rfl
    | some c => rw [replaceAt_cons h, at?_cons (child?_setChild_self h), at?_cons h, ih]

/-- A part that is apart from a replacement stays. -/
theorem at?_replaceAt_of_apart (h : Apart p q) : (root.replaceAt p v).at? q = root.at? q := by
  induction p generalizing root q with
  | nil => exact absurd (List.nil_prefix) h.1
  | cons s p ih =>
    cases q with
    | nil => exact absurd (List.nil_prefix) h.2
    | cons t q =>
      cases hc : root.child? s with
      | none => rw [replaceAt_of_child?_none hc]
      | some c =>
        rw [replaceAt_cons hc]
        by_cases hst : s = t
        · subst hst
          rw [at?_cons (child?_setChild_self hc), at?_cons hc]
          exact ih ((apart_cons.mp h).resolve_left (fun hne => hne rfl))
        · have hts : t ≠ s := fun he => hst he.symm
          rw [at?, at?, child?_setChild_of_ne hts]

theorem replaceAt_at? (h : root.at? p = some v) : root.replaceAt p v = root := by
  induction p generalizing root with
  | nil => exact (Option.some.inj h).symm
  | cons s p ih =>
    cases hc : root.child? s with
    | none => exact replaceAt_of_child?_none hc
    | some c =>
      rw [at?_cons hc] at h
      rw [replaceAt_cons hc, ih h, setChild_child? hc]

/-- Replacing a part of a part. -/
theorem replaceAt_append (h : root.at? p = some c) :
    root.replaceAt (p ++ q) v = root.replaceAt p (c.replaceAt q v) := by
  induction p generalizing root with
  | nil => rw [← Option.some.inj h]; rfl
  | cons s p ih =>
    rw [List.cons_append]
    cases hc : root.child? s with
    | none => rw [replaceAt_of_child?_none hc, replaceAt_of_child?_none hc]
    | some d =>
      rw [at?_cons hc] at h
      rw [replaceAt_cons hc, replaceAt_cons hc, ih h]

theorem child?_replaceAt_of_ne (root : Json) (p : Position) (v : Json) (h : s ≠ t) :
    (root.replaceAt (t :: p) v).child? s = root.child? s := by
  cases hd : root.child? t with
  | none => rw [replaceAt_of_child?_none hd]
  | some d => rw [replaceAt_cons hd, child?_setChild_of_ne h]

/-- **Replacements at positions that are apart commute.** -/
theorem replaceAt_comm (h : Apart p q) :
    (root.replaceAt p v).replaceAt q w = (root.replaceAt q w).replaceAt p v := by
  induction p generalizing root q with
  | nil => exact absurd List.nil_prefix h.1
  | cons s p ih =>
    cases q with
    | nil => exact absurd List.nil_prefix h.2
    | cons t q =>
      by_cases hst : s = t
      · subst hst
        have hpq := (apart_cons.mp h).resolve_left (fun hne => hne rfl)
        cases hc : root.child? s with
        | none => simp only [replaceAt_of_child?_none hc]
        | some c =>
          rw [replaceAt_cons hc, replaceAt_cons hc, replaceAt_cons (child?_setChild_self hc),
            replaceAt_cons (child?_setChild_self hc), setChild_setChild, setChild_setChild, ih hpq]
      · have hts : t ≠ s := fun he => hst he.symm
        have hs := child?_replaceAt_of_ne root q w hst
        have ht := child?_replaceAt_of_ne root p v hts
        cases hc : root.child? s with
        | none => rw [replaceAt_of_child?_none hc, replaceAt_of_child?_none (hs.trans hc)]
        | some c =>
          cases hd : root.child? t with
          | none => rw [replaceAt_of_child?_none hd, replaceAt_of_child?_none (ht.trans hd)]
          | some d =>
            rw [replaceAt_cons (hs.trans hc), replaceAt_cons (ht.trans hd), replaceAt_cons hc,
              replaceAt_cons hd, setChild_comm hts]

/-! ### Many positions -/

/-- The values put in the places of the parts at these positions, one after another. -/
def replaceAll (root : Json) (edits : List (Position × Json)) : Json :=
  edits.foldl (fun v e => v.replaceAt e.1 e.2) root

variable {edits edits' : List (Position × Json)}

theorem replaceAll_cons (e : Position × Json) :
    root.replaceAll (e :: edits) = (root.replaceAt e.1 e.2).replaceAll edits := rfl

theorem replaceAll_append :
    root.replaceAll (edits ++ edits') = (root.replaceAll edits).replaceAll edits' :=
  List.foldl_append

/-- Replacements within one child. -/
theorem replaceAll_under (h : root.child? s = some c) :
    root.replaceAll (edits.map fun e => (s :: e.1, e.2)) =
      root.setChild s (c.replaceAll edits) := by
  induction edits generalizing root c with
  | nil => exact (setChild_child? h).symm
  | cons e edits ih =>
    rw [List.map_cons, replaceAll_cons, replaceAll_cons, replaceAt_cons h,
      ih (child?_setChild_self h), setChild_setChild]

/-- A part that is apart from all replacements stays. -/
theorem at?_replaceAll_of_apart (h : ∀ e ∈ edits, Apart e.1 q) :
    (root.replaceAll edits).at? q = root.at? q := by
  induction edits generalizing root with
  | nil => rfl
  | cons e edits ih =>
    rw [replaceAll_cons, ih fun e' he' => h e' (List.mem_cons_of_mem e he')]
    exact at?_replaceAt_of_apart (h e List.mem_cons_self)

/-- Each of several replacements that are apart is found at its position. -/
theorem at?_replaceAll_of_mem {e : Position × Json}
    (hp : edits.Pairwise fun a b => Apart a.1 b.1) (he : e ∈ edits)
    (hr : (root.at? e.1).isSome) : (root.replaceAll edits).at? e.1 = some e.2 := by
  induction edits generalizing root with
  | nil => cases he
  | cons a edits ih =>
    rw [replaceAll_cons]
    obtain ⟨ha, hp⟩ := List.pairwise_cons.mp hp
    rcases List.mem_cons.mp he with rfl | he
    · rw [at?_replaceAll_of_apart fun b hb => (ha b hb).symm, at?_replaceAt_self]
      obtain ⟨c, hc⟩ := Option.isSome_iff_exists.mp hr
      rw [hc]
      rfl
    · refine ih hp he ?_
      rw [at?_replaceAt_of_apart (ha e he)]
      exact hr

/-- Parts replaced by themselves. -/
theorem replaceAll_at? (h : ∀ e ∈ edits, root.at? e.1 = some e.2) :
    root.replaceAll edits = root := by
  induction edits with
  | nil => rfl
  | cons e edits ih =>
    rw [replaceAll_cons, replaceAt_at? (h e List.mem_cons_self)]
    exact ih fun e' he' => h e' (List.mem_cons_of_mem e he')

theorem replaceAll_replaceAt (h : ∀ e ∈ edits, Apart p e.1) :
    (root.replaceAt p v).replaceAll edits = (root.replaceAll edits).replaceAt p v := by
  induction edits generalizing root with
  | nil => rfl
  | cons e edits ih =>
    rw [replaceAll_cons, replaceAll_cons, replaceAt_comm (h e List.mem_cons_self)]
    exact ih fun e' he' => h e' (List.mem_cons_of_mem e he')

theorem replaceAll_comm (h : ∀ e ∈ edits, ∀ e' ∈ edits', Apart e.1 e'.1) :
    (root.replaceAll edits).replaceAll edits' = (root.replaceAll edits').replaceAll edits := by
  induction edits generalizing root with
  | nil => rfl
  | cons e edits ih =>
    rw [replaceAll_cons, replaceAll_cons,
      ih fun e₁ he₁ => h e₁ (List.mem_cons_of_mem e he₁),
      replaceAll_replaceAt (h e List.mem_cons_self)]

end Json

end Redaction
