import Mathlib.Data.List.Forall2

/-!
# Lists that are read item by item

A computation that may fail succeeds if each of its parts does (`bind_eq_ok_iff`). So a list is
read if every item is. Then the results stand in the order of the items, each with its own
(`mapM_eq_ok_iff`); otherwise the first item that cannot be read says why (`mapM_eq_error_iff`).
-/

namespace Redaction

theorem bind_eq_ok_iff {α β ε : Type} {x : Except ε α} {f : α → Except ε β} {b : β} :
    (x >>= f) = .ok b ↔ ∃ a, x = .ok a ∧ f a = .ok b := by
  constructor
  · intro h
    cases x with
    | error e => cases h
    | ok a => exact ⟨a, rfl, h⟩
  · rintro ⟨a, rfl, h⟩
    exact h

theorem bind_eq_error_iff {α β ε : Type} {x : Except ε α} {f : α → Except ε β} {e : ε} :
    (x >>= f) = .error e ↔ x = .error e ∨ ∃ a, x = .ok a ∧ f a = .error e := by
  cases x with
  | error e' =>
    constructor
    · rintro ⟨⟩
      exact Or.inl rfl
    · rintro (⟨⟨⟩⟩ | ⟨a, h, -⟩)
      · rfl
      · cases h
  | ok a =>
    constructor
    · intro h
      exact Or.inr ⟨a, rfl, h⟩
    · rintro (h | ⟨a, ⟨⟩, h⟩)
      · cases h
      · exact h

theorem map_eq_ok_iff {α β ε : Type} {x : Except ε α} {f : α → β} {b : β} :
    x.map f = .ok b ↔ ∃ a, x = .ok a ∧ f a = b := by
  cases x <;> simp [Except.map]

theorem map_eq_error_iff {α β ε : Type} {x : Except ε α} {f : α → β} {e : ε} :
    x.map f = .error e ↔ x = .error e := by
  cases x <;> simp [Except.map]

/-- **A list is read as the list of what its items are read as.** -/
theorem mapM_eq_ok_iff {α β ε : Type} {f : α → Except ε β} {as : List α} {bs : List β} :
    as.mapM f = .ok bs ↔ List.Forall₂ (fun a b => f a = .ok b) as bs := by
  induction as generalizing bs with
  | nil =>
    rw [List.mapM_nil, List.forall₂_nil_left_iff]
    exact ⟨fun h => (Except.ok.inj h).symm, fun h => by rw [h]; rfl⟩
  | cons a as ih =>
    rw [List.mapM_cons, List.forall₂_cons_left_iff, bind_eq_ok_iff]
    constructor
    · rintro ⟨b, ha, h⟩
      obtain ⟨bs', has, h⟩ := bind_eq_ok_iff.mp h
      exact ⟨b, bs', ha, ih.mp has, (Except.ok.inj h).symm⟩
    · rintro ⟨b, bs', ha, has, rfl⟩
      exact ⟨b, ha, bind_eq_ok_iff.mpr ⟨bs', ih.mpr has, rfl⟩⟩

/-- **A list is not read because of the first item that is not.** -/
theorem mapM_eq_error_iff {α β ε : Type} {f : α → Except ε β} {as : List α} {e : ε} :
    as.mapM f = .error e ↔ ∃ before a after, as = before ++ a :: after ∧
      (∀ b ∈ before, ∃ c, f b = .ok c) ∧ f a = .error e := by
  induction as with
  | nil =>
    rw [List.mapM_nil]
    constructor
    · intro h
      cases h
    · rintro ⟨before, a, after, h, -⟩
      simp at h
  | cons a as ih =>
    have hstep : (a :: as).mapM f = .error e ↔
        f a = .error e ∨ (∃ b, f a = .ok b) ∧ as.mapM f = .error e := by
      rw [List.mapM_cons, bind_eq_error_iff]
      refine or_congr_right ⟨?_, ?_⟩
      · rintro ⟨b, hb, h⟩
        rcases bind_eq_error_iff.mp h with h | ⟨bs, -, h⟩
        · exact ⟨⟨b, hb⟩, h⟩
        · cases h
      · rintro ⟨⟨b, hb⟩, h⟩
        exact ⟨b, hb, bind_eq_error_iff.mpr (Or.inl h)⟩
    rw [hstep, ih]
    constructor
    · rintro (ha | ⟨ha, before, a', after, rfl, hbefore, ha'⟩)
      · exact ⟨[], a, as, rfl, by simp, ha⟩
      · refine ⟨a :: before, a', after, rfl, fun x hx => ?_, ha'⟩
        rcases List.mem_cons.mp hx with rfl | hx
        · exact ha
        · exact hbefore x hx
    · rintro ⟨before, a', after, h, hbefore, ha'⟩
      cases before with
      | nil =>
        obtain ⟨rfl, -⟩ := List.cons.inj h
        exact Or.inl ha'
      | cons x before =>
        obtain ⟨rfl, htail⟩ := List.cons.inj h
        refine Or.inr ⟨hbefore a List.mem_cons_self, before, a', after, htail, ?_, ha'⟩
        intro y hy
        exact hbefore y (List.mem_cons_of_mem a hy)

theorem length_of_mapM_eq_ok {α β ε : Type} {f : α → Except ε β} {as : List α} {bs : List β}
    (h : as.mapM f = .ok bs) : as.length = bs.length := (mapM_eq_ok_iff.mp h).length_eq

/-- Every member of one list is related to one of the other. -/
theorem exists_of_forall₂ {α β : Type} {R : α → β → Prop} {as : List α} {bs : List β}
    (h : List.Forall₂ R as bs) {b : β} (hb : b ∈ bs) : ∃ a ∈ as, R a b := by
  induction h with
  | nil => cases hb
  | @cons a b' as bs hab _ ih =>
    rcases List.mem_cons.mp hb with rfl | hb
    · exact ⟨a, List.mem_cons_self, hab⟩
    · obtain ⟨a', ha', hR⟩ := ih hb
      exact ⟨a', List.mem_cons_of_mem a ha', hR⟩

/-- Every result is that of an item. -/
theorem exists_of_mapM_eq_ok {α β ε : Type} {f : α → Except ε β} {as : List α} {bs : List β}
    (h : as.mapM f = .ok bs) {b : β} (hb : b ∈ bs) : ∃ a ∈ as, f a = .ok b :=
  exists_of_forall₂ (mapM_eq_ok_iff.mp h) hb

/-- Every item has its result. -/
theorem exists_result_of_mapM_eq_ok {α β ε : Type} {f : α → Except ε β} {as : List α} {bs : List β}
    (h : as.mapM f = .ok bs) {a : α} (ha : a ∈ as) : ∃ b, f a = .ok b := by
  obtain ⟨b, -, hb⟩ := exists_of_forall₂ (mapM_eq_ok_iff.mp h).flip ha
  exact ⟨b, hb⟩

/-- What is written item by item is read back if every item is. -/
theorem mapM_map_eq_some {α β : Type} {f : α → β} {g : β → Option α} (h : ∀ a, g (f a) = some a)
    (as : List α) : (as.map f).mapM g = some as := by
  have hread : g ∘ f = fun a => pure a := funext h
  rw [List.mapM_map, hread, List.mapM_pure, List.map_id']
  rfl

end Redaction
