import Mathlib.Data.List.Forall2
import Redaction.Proofs.Json.Outline

/-!
# Values that differ in strings only

Two values are alike but for a set of positions if they have the same outlines, where at the
positions of the set two strings may stand instead. So they have parts at the same positions
(`Alike.isSome_at?`). Alike values put into them at one position leave them alike
(`Alike.replaceAt`, `Alike.replaceAll`). Where the set is that of the positions of members, arrays
and objects are alike if what is in them is (`alike_array`, `alike_object`).
-/

namespace Redaction

namespace Position

/-- The last step of the position leads to a member. -/
def OfMember (p : Position) : Prop := ∃ q key, p = q ++ [Step.member key]

/-- The position is of a member if it is continued from one. -/
def BelowMember (p : Position) : Prop := p = [] ∨ OfMember p

variable {p q : Position} {k : String} {i : Nat}

theorem not_ofMember_nil : ¬ OfMember [] := by
  rintro ⟨q, key, h⟩
  simp at h

theorem ofMember_append (hp : OfMember p) : OfMember (p ++ q) ↔ BelowMember q := by
  constructor
  · intro h
    rcases List.eq_nil_or_concat q with rfl | ⟨r, t, rfl⟩
    · exact Or.inl rfl
    · obtain ⟨q, key, h⟩ := h
      rw [List.concat_eq_append, ← List.append_assoc] at h
      obtain ⟨-, ht⟩ := List.append_inj' h rfl
      exact Or.inr ⟨r, key, by rw [List.concat_eq_append, ht]⟩
  · rintro (rfl | ⟨r, key, rfl⟩)
    · rw [List.append_nil]
      exact hp
    · exact ⟨p ++ r, key, (List.append_assoc p r _).symm⟩

theorem ofMember_cons_element : OfMember (.element i :: p) ↔ OfMember p := by
  constructor
  · rintro ⟨q, key, h⟩
    cases q with
    | nil => simp at h
    | cons t q => exact ⟨q, key, (List.cons.inj h).2⟩
  · rintro ⟨q, key, rfl⟩
    exact ⟨.element i :: q, key, rfl⟩

theorem ofMember_cons_member : OfMember (.member k :: p) ↔ BelowMember p :=
  ofMember_append ⟨[], k, rfl⟩

end Position

namespace Json

open Position

variable {P Q : Position → Prop} {a b v w : Json} {p q : Position}

/-- The values have the same outlines, but for two strings at positions with this property. -/
def Alike (P : Position → Prop) (a b : Json) : Prop :=
  ∀ p, a.outlineAt p = b.outlineAt p ∨
    P p ∧ ∃ x y, a.outlineAt p = some (.string x) ∧ b.outlineAt p = some (.string y)

theorem outlineAt_append (a : Json) (p q : Position) :
    a.outlineAt (p ++ q) = (a.at? p).bind fun v => v.outlineAt q := by
  unfold outlineAt
  rw [at?_append]
  cases a.at? p <;> rfl

/-- Of two options that are there or not alike, both are there or none is. -/
theorem none_or_some_of_isSome {α : Type} {x y : Option α} (h : x.isSome = y.isSome) :
    x = none ∧ y = none ∨ ∃ v w, x = some v ∧ y = some w := by
  cases x <;> cases y <;> simp at h ⊢

namespace Alike

theorem refl (P : Position → Prop) (a : Json) : Alike P a a := fun _ => Or.inl rfl

theorem mono (hPQ : ∀ p, P p → Q p) (h : Alike P a b) : Alike Q a b := by
  intro p
  exact (h p).imp_right fun hp => ⟨hPQ p hp.1, hp.2⟩

theorem strings (hP : P []) (x y : String) : Alike P (.string x) (.string y) := by
  intro p
  cases p with
  | nil => exact Or.inr ⟨hP, x, y, rfl, rfl⟩
  | cons s p => exact Or.inl rfl

/-- Alike values have parts at the same positions. -/
theorem isSome_at? (h : Alike P a b) (p : Position) : (a.at? p).isSome = (b.at? p).isSome := by
  rw [← isSome_outlineAt, ← isSome_outlineAt]
  rcases h p with heq | ⟨-, x, y, hx, hy⟩
  · rw [heq]
  · rw [hx, hy]
    rfl

/-- The parts of alike values are alike. -/
theorem part (h : Alike P a b) (hv : a.at? p = some v) (hw : b.at? p = some w) :
    Alike (fun q => P (p ++ q)) v w := by
  intro q
  have hq := h (p ++ q)
  rw [outlineAt_append, outlineAt_append, hv, hw] at hq
  exact hq

theorem outline_eq_or (h : Alike P a b) :
    a.outline = b.outline ∨ P [] ∧ ∃ x y, a = .string x ∧ b = .string y := by
  have hstring : ∀ {v : Json} {x : String}, v.outlineAt [] = some (.string x) → v = .string x := by
    intro v x hv
    have hv : v.outline = .string x := Option.some.inj hv
    cases v <;> simp only [outline, reduceCtorEq, Outline.string.injEq] at hv
    rw [hv]
  rcases h [] with heq | ⟨hP, x, y, hx, hy⟩
  · exact Or.inl (Option.some.inj heq)
  · exact Or.inr ⟨hP, x, y, hstring hx, hstring hy⟩

theorem outline_eq (h : Alike P a b) (hP : ¬ P []) : a.outline = b.outline :=
  h.outline_eq_or.resolve_right fun hs => hP hs.1

/-- Values of one outline are alike if their parts one step further are. -/
theorem of_children (h : a.outline = b.outline) (hc : ∀ s v w, a.child? s = some v →
    b.child? s = some w → Alike (fun q => P (s :: q)) v w) : Alike P a b := by
  intro p
  cases p with
  | nil => exact Or.inl (congrArg some h)
  | cons s p =>
    have hsome := isSome_child?_of_outline (s := s) h
    rcases none_or_some_of_isSome hsome with ⟨hv, hw⟩ | ⟨v, w, hv, hw⟩
    · unfold outlineAt
      rw [at?_of_child?_none hv, at?_of_child?_none hw]
      exact Or.inl rfl
    · rw [outlineAt_of_child? hv, outlineAt_of_child? hw]
      exact hc s v w hv hw p

/-- Alike values put into alike values at one position leave them alike. -/
theorem replaceAt (h : Alike P a b) (hvw : Alike (fun q => P (p ++ q)) v w) :
    Alike P (a.replaceAt p v) (b.replaceAt p w) := by
  intro q
  by_cases hpq : p <+: q
  · obtain ⟨r, rfl⟩ := hpq
    have hput : ∀ root c : Json, (root.replaceAt p c).outlineAt (p ++ r) =
        (root.at? p).bind fun _ => c.outlineAt r := by
      intro root c
      unfold outlineAt
      rw [at?_replaceAt_append]
      cases root.at? p <;> rfl
    rw [hput, hput]
    rcases none_or_some_of_isSome (h.isSome_at? p) with ⟨ha, hb⟩ | ⟨c, d, ha, hb⟩
    · rw [ha, hb]
      exact Or.inl rfl
    · rw [ha, hb]
      exact hvw r
  · rw [outlineAt_replaceAt hpq, outlineAt_replaceAt hpq]
    exact h q

/-- **Alike values put into alike values at the same positions leave them alike.** -/
theorem replaceAll {edits edits' : List (Position × Json)} (h : Alike P a b)
    (he : List.Forall₂ (fun e e' => e.1 = e'.1 ∧ Alike (fun q => P (e.1 ++ q)) e.2 e'.2)
      edits edits') : Alike P (a.replaceAll edits) (b.replaceAll edits') := by
  induction he generalizing a b with
  | nil => exact h
  | cons hhead _ ih =>
    obtain ⟨hposition, hvalue⟩ := hhead
    rw [replaceAll_cons, replaceAll_cons, ← hposition]
    exact ih (h.replaceAt hvalue)

end Alike

/-! ### Strings of members -/

/-- Two values that differ in strings of members, seen from a member, are strings or differ in
strings of their own members. -/
theorem Alike.ofMember_or_strings (h : Alike BelowMember v w) :
    Alike OfMember v w ∨ ∃ x y, v = .string x ∧ w = .string y := by
  rcases h.outline_eq_or with ho | ⟨-, hstrings⟩
  · refine Or.inl fun p => ?_
    rcases h p with heq | ⟨hp, hxy⟩
    · exact Or.inl heq
    · rcases hp with rfl | hp
      · exact Or.inl (congrArg some ho)
      · exact Or.inr ⟨hp, hxy⟩
  · exact Or.inr hstrings

theorem alike_array {vs ws : List Json} :
    Alike OfMember (.array vs) (.array ws) ↔ List.Forall₂ (Alike OfMember) vs ws := by
  rw [List.forall₂_iff_get]
  constructor
  · intro h
    refine ⟨Outline.array.inj (h.outline_eq not_ofMember_nil), fun i hi hi' => ?_⟩
    have hpart := h.part (p := [.element i]) (v := vs[i]) (w := ws[i])
      (at?_cons (List.getElem?_eq_getElem hi)) (at?_cons (List.getElem?_eq_getElem hi'))
    exact hpart.mono fun q => ofMember_cons_element.mp
  · rintro ⟨hlength, h⟩
    refine Alike.of_children (congrArg Outline.array hlength) fun s v w hv hw => ?_
    cases s with
    | member k => cases hv
    | element i =>
      obtain ⟨hi, rfl⟩ := List.getElem?_eq_some_iff.mp hv
      obtain ⟨hi', rfl⟩ := List.getElem?_eq_some_iff.mp hw
      exact (h i hi hi').mono fun q => ofMember_cons_element.mpr

theorem alike_object {ms ms' : Members} :
    Alike OfMember (.object ms) (.object ms') ↔ ms.keys = ms'.keys ∧
      ∀ k v w, Members.get? k ms = some v → Members.get? k ms' = some w →
        Alike BelowMember v w := by
  constructor
  · intro h
    refine ⟨Outline.object.inj (h.outline_eq not_ofMember_nil), fun k v w hv hw => ?_⟩
    have hpart := h.part (p := [.member k]) (v := v) (w := w) (at?_cons hv) (at?_cons hw)
    exact hpart.mono fun q => ofMember_cons_member.mp
  · rintro ⟨hkeys, h⟩
    refine Alike.of_children (congrArg Outline.object hkeys) fun s v w hv hw => ?_
    cases s with
    | element i => cases hv
    | member k => exact (h k v w hv hw).mono fun q => ofMember_cons_member.mpr

end Json

end Redaction
