import Mathlib.Order.Bounds.Defs
import Redaction.Mask.Entries
import Redaction.Proofs.Traversal

/-!
# Masking by the shape of a value

What a redactor of entries does with a value that is no string depends on the shape of the value and
on the selection alone. An array is masked element by element (`maskElements_eq_ok_iff`), or it is
not because of its first element that is no pair, and that only if every entry is to be masked
(`maskElements_eq_error_iff`). An object is masked member by member (`maskMembers_eq_iff`). All
shapes together are in `Redactor.redact_by_shape`.
-/

namespace Redaction

namespace Entries

variable {names : Selection} {maskString : String → Except RedactError String} {i : Nat}
  {item v w : Json} {items ws : List Json} {e : RedactError}

/-! ### Elements of arrays -/

/-- A name and what belongs to it. -/
def IsPair (item : Json) : Prop := ∃ name rest, item = .array (name :: rest)

/-- What takes the place of an element: a pair whose name is selected keeps its name, and with
names to choose from every other element stays. -/
inductive ElementMasked : Selection → Json → Json → Prop
  | every (name : Json) (rest : List Json) :
      ElementMasked .all (.array (name :: rest)) (.array [name, maskValue])
  | selected {keys : List String} {name : String} (rest : List Json) (h : name ∈ keys) :
      ElementMasked (.only keys) (.array (.string name :: rest)) (.array [.string name, maskValue])
  | kept {keys : List String} {item : Json}
      (h : ∀ name rest, item = .array (.string name :: rest) → name ∉ keys) :
      ElementMasked (.only keys) item item

/-- The indices of the elements that are no pairs. -/
def unpaired (items : List Json) : Set Nat := {i | ∃ item, items[i]? = some item ∧ ¬ IsPair item}

theorem selectsValue_only {keys : List String} :
    selectsValue (.only keys) v = true ↔ ∃ name ∈ keys, v = .string name := by
  cases v <;> simp [selectsValue, Selection.selects]

theorem maskElement_eq_ok_iff : maskElement names i item = .ok w ↔ ElementMasked names item w := by
  constructor
  · fun_cases maskElement names i item with
    | case1 name rest =>
      rintro ⟨⟩
      exact .every name rest
    | case2 => rintro ⟨⟩
    | case3 keys name rest hselects =>
      rw [if_pos hselects]
      rintro ⟨⟩
      obtain ⟨name, hname, rfl⟩ := selectsValue_only.mp hselects
      exact .selected rest hname
    | case4 keys name rest hselects =>
      rw [if_neg hselects]
      rintro ⟨⟩
      refine .kept fun name' rest' he hname => hselects ?_
      obtain ⟨rfl, -⟩ := List.cons.inj (Json.array.inj he)
      exact selectsValue_only.mpr ⟨name', hname, rfl⟩
    | case5 _ keys hpair =>
      rintro ⟨⟩
      exact .kept fun name rest he => absurd he (hpair (.string name) rest)
  · intro h
    cases h with
    | every name rest => rfl
    | selected rest hname => exact if_pos (selectsValue_only.mpr ⟨_, hname, rfl⟩)
    | @kept keys _ hkept =>
      unfold maskElement
      split
      · contradiction
      · contradiction
      · next name rest hkeys =>
        cases hkeys
        refine if_neg fun hselects => ?_
        obtain ⟨name, hname, rfl⟩ := selectsValue_only.mp hselects
        exact hkept name rest rfl hname
      · rfl

/-- Only if every entry is to be masked is an element without a name an error. -/
theorem maskElement_eq_error_iff : maskElement names i item = .error e ↔
    names = .all ∧ ¬ IsPair item ∧ e = .malformedPair i := by
  fun_cases maskElement names i item with
  | case1 name rest =>
    exact ⟨fun h => (by cases h), fun h => absurd ⟨name, rest, rfl⟩ h.2.1⟩
  | case2 _ hpair =>
    have hunpaired : ¬ IsPair item := fun ⟨name, rest, he⟩ => hpair name rest he
    exact ⟨fun h => ⟨rfl, hunpaired, (Except.error.inj h).symm⟩, fun h => by rw [h.2.2]⟩
  | case3 keys name rest hselects =>
    rw [if_pos hselects]
    exact ⟨fun h => (by cases h), fun h => (by cases h.1)⟩
  | case4 keys name rest hselects =>
    rw [if_neg hselects]
    exact ⟨fun h => (by cases h), fun h => (by cases h.1)⟩
  | case5 => exact ⟨fun h => (by cases h), fun h => (by cases h.1)⟩

theorem maskElements_cons : maskElements names i (item :: items) = .ok ws ↔
    ∃ w ws', maskElement names i item = .ok w ∧ maskElements names (i + 1) items = .ok ws' ∧
      w :: ws' = ws := by
  rw [maskElements, bind_eq_ok_iff]
  constructor
  · rintro ⟨w, hw, h⟩
    obtain ⟨ws', hws, h⟩ := bind_eq_ok_iff.mp h
    exact ⟨w, ws', hw, hws, Except.ok.inj h⟩
  · rintro ⟨w, ws', hw, hws, rfl⟩
    exact ⟨w, hw, bind_eq_ok_iff.mpr ⟨ws', hws, rfl⟩⟩

theorem exists_maskElement_eq_ok_iff :
    (∃ w, maskElement names i item = .ok w) ↔ (names = .all → IsPair item) := by
  have herror : (∃ e, maskElement names i item = .error e) ↔ names = .all ∧ ¬ IsPair item := by
    simp [maskElement_eq_error_iff]
  rw [← not_iff_not, Classical.not_imp, ← herror]
  cases maskElement names i item <;> simp

/-- **An array is masked element by element.** -/
theorem maskElements_eq_ok_iff :
    maskElements names i items = .ok ws ↔ List.Forall₂ (ElementMasked names) items ws := by
  induction items generalizing i ws with
  | nil =>
    rw [maskElements, List.forall₂_nil_left_iff]
    exact ⟨fun h => (Except.ok.inj h).symm, fun h => by rw [h]⟩
  | cons item items ih =>
    rw [maskElements_cons, List.forall₂_cons_left_iff]
    simp only [maskElement_eq_ok_iff, ih, eq_comm (a := ws)]

theorem zero_mem_unpaired : 0 ∈ unpaired (item :: items) ↔ ¬ IsPair item := by
  show (∃ first, some item = some first ∧ ¬ IsPair first) ↔ ¬ IsPair item
  simp

theorem succ_mem_unpaired {k : Nat} : k + 1 ∈ unpaired (item :: items) ↔ k ∈ unpaired items :=
  Iff.rfl

/-- The first element that is no pair is the one in front, or it comes after a pair. -/
theorem isLeast_unpaired_cons {j : Nat} : IsLeast (unpaired (item :: items)) j ↔
    (¬ IsPair item ∧ j = 0) ∨ (IsPair item ∧ ∃ k, IsLeast (unpaired items) k ∧ j = k + 1) := by
  by_cases hpair : IsPair item
  · have hzero : 0 ∉ unpaired (item :: items) := fun h => zero_mem_unpaired.mp h hpair
    simp only [hpair, not_true, false_and, true_and, false_or]
    constructor
    · rintro ⟨hj, hleast⟩
      cases j with
      | zero => exact absurd hj hzero
      | succ k =>
        refine ⟨k, ⟨succ_mem_unpaired.mp hj, fun m hm => ?_⟩, rfl⟩
        exact Nat.le_of_succ_le_succ (hleast (succ_mem_unpaired.mpr hm))
    · rintro ⟨k, ⟨hk, hleast⟩, rfl⟩
      refine ⟨succ_mem_unpaired.mpr hk, fun m hm => ?_⟩
      cases m with
      | zero => exact absurd hm hzero
      | succ m => exact Nat.succ_le_succ (hleast (succ_mem_unpaired.mp hm))
  · have hzero : 0 ∈ unpaired (item :: items) := zero_mem_unpaired.mpr hpair
    simp only [hpair, not_false_iff, true_and, false_and, or_false]
    constructor
    · exact fun h => Nat.le_zero.mp (h.2 hzero)
    · rintro rfl
      exact ⟨hzero, fun m _ => Nat.zero_le m⟩

/-- **An array is not masked because of its first element that is no pair.** -/
theorem maskElements_eq_error_iff : maskElements names i items = .error e ↔
    names = .all ∧ ∃ j, e = .malformedPair (i + j) ∧ IsLeast (unpaired items) j := by
  induction items generalizing i with
  | nil =>
    refine ⟨fun h => (by cases h), ?_⟩
    rintro ⟨-, j, -, ⟨item, hitem, -⟩, -⟩
    cases hitem
  | cons item items ih =>
    -- the elements behind are looked at if this one is masked
    have hstep : maskElements names i (item :: items) = .error e ↔
        maskElement names i item = .error e ∨ (∃ w, maskElement names i item = .ok w) ∧
          maskElements names (i + 1) items = .error e := by
      rw [maskElements, bind_eq_error_iff]
      refine or_congr_right ⟨?_, ?_⟩
      · rintro ⟨w, hw, h⟩
        rcases bind_eq_error_iff.mp h with h | ⟨ws, -, h⟩
        · exact ⟨⟨w, hw⟩, h⟩
        · cases h
      · rintro ⟨⟨w, hw⟩, h⟩
        exact ⟨w, hw, bind_eq_error_iff.mpr (Or.inl h)⟩
    rw [hstep, ih, maskElement_eq_error_iff, exists_maskElement_eq_ok_iff]
    constructor
    · rintro (⟨hall, hpair, he⟩ | ⟨hpair, hall, j, he, hj⟩)
      · exact ⟨hall, 0, he, isLeast_unpaired_cons.mpr (Or.inl ⟨hpair, rfl⟩)⟩
      · have hindex : i + 1 + j = i + (j + 1) := by omega
        rw [hindex] at he
        exact ⟨hall, j + 1, he, isLeast_unpaired_cons.mpr (Or.inr ⟨hpair hall, j, hj, rfl⟩)⟩
    · rintro ⟨hall, j, he, hj⟩
      rcases isLeast_unpaired_cons.mp hj with ⟨hpair, rfl⟩ | ⟨hpair, k, hk, rfl⟩
      · exact Or.inl ⟨hall, hpair, he⟩
      · have hindex : i + (k + 1) = i + 1 + k := by omega
        rw [hindex] at he
        exact Or.inr ⟨fun _ => hpair, hall, k, he, hk⟩

/-! ### Members of objects -/

/-- **An object is masked member by member.** -/
theorem maskMembers_eq_iff {ms out : Members} : maskMembers names ms = out ↔
    List.Forall₂ (fun m m' => m'.1 = m.1 ∧
      m'.2 = if names.selects m.1 = true then .string maskText else m.2) ms out := by
  rw [maskMembers, ← List.forall₂_eq_eq_eq, List.forall₂_map_left_iff]
  refine ⟨fun h => h.imp ?_, fun h => h.imp ?_⟩
  · rintro m m' rfl
    exact ⟨rfl, rfl⟩
  · rintro m m' ⟨hname, hvalue⟩
    exact Prod.ext hname.symm hvalue.symm

/-! ### Values -/

theorem mask_of_isFalsy (h : v.isFalsy = true) : mask names maskString v = .ok v := if_pos h

theorem mask_object (ms : Members) :
    mask names maskString (.object ms) = .ok (.object (maskMembers names ms)) := by
  cases ms <;> rfl

theorem keys_maskMembers (names : Selection) (ms : Members) :
    (maskMembers names ms).keys = ms.keys := by
  unfold maskMembers Members.keys
  rw [List.map_map]
  rfl

theorem mask_array (items : List Json) :
    mask names maskString (.array items) = (maskElements names 0 items).map Json.array := by
  cases items <;> rfl

theorem mask_number (n : Number) : mask names maskString (.number n) =
    if n.isZero = true then .ok (.number n) else .error (.unsupportedShape "number") := rfl

theorem isFalsy_string {s : String} : (Json.string s).isFalsy = true ↔ s = "" := String.isEmpty_iff

theorem mask_string {s : String} (h : s ≠ "") :
    mask names maskString (.string s) = (maskString s).map Json.string := by
  have hfalsy : ¬ (Json.string s).isFalsy = true := fun he => h (isFalsy_string.mp he)
  rw [mask, if_neg hfalsy]
  cases maskString s <;> rfl

/-- **How a value is masked.** Its shape tells, unless it stays as it is. -/
theorem mask_eq_ok (h : mask names maskString v = .ok w) :
    (v.isFalsy = true ∧ w = v) ∨
    (∃ ms, v = .object ms ∧ w = .object (maskMembers names ms)) ∨
    (∃ items ws, v = .array items ∧ w = .array ws ∧ maskElements names 0 items = .ok ws) ∨
    ∃ s s', v = .string s ∧ w = .string s' ∧ maskString s = .ok s' := by
  cases v with
  | object ms =>
    rw [mask_object] at h
    exact Or.inr (Or.inl ⟨ms, rfl, (Except.ok.inj h).symm⟩)
  | array items =>
    rw [mask_array] at h
    obtain ⟨ws, hws, rfl⟩ := map_eq_ok_iff.mp h
    exact Or.inr (Or.inr (Or.inl ⟨items, ws, rfl, rfl, hws⟩))
  | string s =>
    by_cases hs : s = ""
    · have hfalsy := isFalsy_string.mpr hs
      rw [mask_of_isFalsy hfalsy] at h
      exact Or.inl ⟨hfalsy, (Except.ok.inj h).symm⟩
    · rw [mask_string hs] at h
      obtain ⟨s', hs', rfl⟩ := map_eq_ok_iff.mp h
      exact Or.inr (Or.inr (Or.inr ⟨s, s', rfl, rfl, hs'⟩))
  | _ =>
    unfold mask at h
    split at h
    · next hfalsy => exact Or.inl ⟨hfalsy, (Except.ok.inj h).symm⟩
    · cases h

/-- What masking puts in the place of a value has its type. -/
theorem typeName_mask (h : mask names maskString v = .ok w) : w.typeName = v.typeName := by
  rcases mask_eq_ok h with ⟨-, rfl⟩ | ⟨ms, rfl, rfl⟩ | ⟨items, ws, rfl, rfl, -⟩ |
    ⟨s, s', rfl, rfl, -⟩ <;> rfl

theorem exists_string_of_mask {s : String} (h : mask names maskString (.string s) = .ok w) :
    ∃ s', w = .string s' := by
  rcases mask_eq_ok h with ⟨-, rfl⟩ | ⟨ms, hv, -⟩ | ⟨items, ws, hv, -⟩ | ⟨-, s', -, rfl, -⟩
  · exact ⟨s, rfl⟩
  · cases hv
  · cases hv
  · exact ⟨s', rfl⟩

end Entries

namespace Redactor

variable {name : String} {redact : Json → Except RedactError Json} {v w : Json} {e : RedactError}

theorem redact_named_eq_value_iff : (named name redact).redact v = .value w ↔ redact v = .ok w := by
  cases h : redact v <;> simp [named, h]

theorem redact_named_eq_error_iff :
    (named name redact).redact v = .error e ↔ redact v = .error e := by
  cases h : redact v <;> simp [named, h]

/-- Zero stays, and another number cannot be masked. -/
theorem redact_number_eq {names : Selection} {n : Number} {p : Prop} [Decidable p]
    (maskString : String → Except RedactError String) (h : n.isZero = true ↔ p) :
    (named name (Entries.mask names maskString)).redact (.number n) =
      if p then .value (.number n) else .error (.unsupportedShape "number") := by
  split
  · next hp =>
    exact redact_named_eq_value_iff.mpr (Entries.mask_of_isFalsy (h.mpr hp))
  · next hp =>
    refine redact_named_eq_error_iff.mpr ?_
    rw [Entries.mask_number, if_neg fun hzero => hp (h.mp hzero)]

/-- The redactors of cookies and of query strings differ in what they do with strings. -/
theorem exists_named_mask {redactor : Selection → Redactor}
    (h : redactor = cookies ∨ redactor = queryString) (names : Selection) :
    ∃ name maskString, redactor names = named name (Entries.mask names maskString) := by
  rcases h with rfl | rfl
  · exact ⟨_, _, rfl⟩
  · exact ⟨_, _, rfl⟩

open Entries in
/-- **What becomes of a value that is no string.** Empty values, null, false and zero stay. An object
keeps its keys. An array is masked element by element, unless every entry is to be masked and some
element has no name; then the first such element is the error. Nothing else can be masked, and what
is masked keeps its type. -/
theorem redact_by_shape {redactor : Selection → Redactor}
    (h : redactor = cookies ∨ redactor = queryString) (names : Selection) :
    (∀ v ∈ [Json.null, .bool false, .string "", .array [], .object []],
      (redactor names).redact v = .value v) ∧
    (redactor names).redact (.bool true) = .error (.unsupportedShape "bool") ∧
    (∀ n : Int, (redactor names).redact (.number (.int n)) =
      if n = 0 then .value (.number (.int n)) else .error (.unsupportedShape "number")) ∧
    (∀ x : Binary64, (redactor names).redact (.number (.double x)) =
      if x.magnitude.significand = 0 then .value (.number (.double x))
      else .error (.unsupportedShape "number")) ∧
    (∀ ms : Members, ∃ out : Members, (redactor names).redact (.object ms) = .value (.object out) ∧
      List.Forall₂ (fun m m' => m'.1 = m.1 ∧
        m'.2 = if names.selects m.1 = true then .string maskText else m.2) ms out) ∧
    (∀ items, (names = .all → ∀ item ∈ items, IsPair item) → ∃ out,
      (redactor names).redact (.array items) = .value (.array out) ∧
        List.Forall₂ (ElementMasked names) items out) ∧
    (∀ items e, (redactor names).redact (.array items) = .error e ↔
      names = .all ∧ ∃ i, e = .malformedPair i ∧
        IsLeast {i | ∃ item, items[i]? = some item ∧ ¬ IsPair item} i) ∧
    ∀ v w, (redactor names).redact v = .value w → w.typeName = v.typeName := by
  obtain ⟨name, maskString, hnamed⟩ := exists_named_mask h names
  rw [hnamed]
  refine ⟨?_, rfl, fun n => ?_, fun x => ?_, fun ms => ?_, fun items hpairs => ?_, fun items e => ?_,
    fun v w hv => typeName_mask (redact_named_eq_value_iff.mp hv)⟩
  · intro v hv
    refine redact_named_eq_value_iff.mpr (mask_of_isFalsy ?_)
    simp only [List.mem_cons, List.not_mem_nil, or_false] at hv
    rcases hv with rfl | rfl | rfl | rfl | rfl <;> rfl
  · exact redact_number_eq maskString (beq_iff_eq (a := n) (b := 0))
  · exact redact_number_eq maskString (beq_iff_eq (a := x.magnitude.significand) (b := 0))
  · exact ⟨maskMembers names ms, redact_named_eq_value_iff.mpr (mask_object ms),
      maskMembers_eq_iff.mp rfl⟩
  · cases hmask : maskElements names 0 items with
    | ok out =>
      refine ⟨out, redact_named_eq_value_iff.mpr ?_, maskElements_eq_ok_iff.mp hmask⟩
      rw [mask_array, hmask, Except.map]
    | error e =>
      obtain ⟨hall, i, -, ⟨item, hitem, hpair⟩, -⟩ := maskElements_eq_error_iff.mp hmask
      exact absurd (hpairs hall item (List.mem_of_getElem? hitem)) hpair
  · rw [redact_named_eq_error_iff, mask_array, map_eq_error_iff, maskElements_eq_error_iff]
    simp only [Nat.zero_add]
    rfl

/-- An element without a name stays among others that are chosen by name; if all are to be masked,
the first such element is the error. A member of an object always has a name. -/
theorem redact_by_shape_unpaired :
    let items := [Json.array [.string "sid", .string "1", .null], .array [], .array [.string "sid"],
      .array [.null, .string "sid"], .null]
    let members := [("sid", Json.string "1"), ("theme", .null)]
    (cookies (.only ["sid"])).redact (.array items) = .value (.array
      [.array [.string "sid", .string "[Scrubbed]"], .array [],
        .array [.string "sid", .string "[Scrubbed]"], .array [.null, .string "sid"], .null]) ∧
    (queryString .all).redact (.array items) = .error (.malformedPair 1) ∧
    (cookies (.only ["sid"])).redact (.object members) =
      .value (.object [("sid", .string "[Scrubbed]"), ("theme", .null)]) ∧
    (queryString .all).redact (.object members) =
      .value (.object [("sid", .string "[Scrubbed]"), ("theme", .string "[Scrubbed]")]) := by
  intro items members
  have hsome := redact_by_shape (Or.inl rfl : cookies = cookies ∨ cookies = queryString)
    (.only ["sid"])
  have hall := redact_by_shape (Or.inr rfl : queryString = cookies ∨ queryString = queryString) .all
  obtain ⟨-, -, -, -, hsomeMembers, hsome, -, -⟩ := hsome
  obtain ⟨-, -, -, -, hallMembers, -, hall, -⟩ := hall
  refine ⟨?_, ?_, ?_, ?_⟩
  · obtain ⟨out, hout, hmasked⟩ := hsome items fun h => by cases h
    rw [hout, ← Except.ok.inj (Entries.maskElements_eq_ok_iff (i := 0).mpr hmasked)]
    rfl
  · refine (hall items _).mpr ⟨rfl, 1, rfl, ⟨.array [], rfl, ?_⟩, fun i hi => ?_⟩
    · rintro ⟨name, rest, he⟩
      cases he
    · cases i with
      | succ i => exact Nat.succ_pos i
      | zero =>
        obtain ⟨item, hitem, hpair⟩ := hi
        exact absurd ⟨_, _, (Option.some.inj hitem).symm⟩ hpair
  · obtain ⟨out, hout, hmasked⟩ := hsomeMembers members
    rw [hout, ← Entries.maskMembers_eq_iff.mpr hmasked]
    rfl
  · obtain ⟨out, hout, hmasked⟩ := hallMembers members
    rw [hout, ← Entries.maskMembers_eq_iff.mpr hmasked]
    rfl

end Redactor

end Redaction
