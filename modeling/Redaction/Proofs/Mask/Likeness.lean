import Redaction.Proofs.Json.Likeness
import Redaction.Proofs.Mask.Commuting
import Redaction.Proofs.Mask.Entries
import Redaction.Rules.Compile

/-!
# What a failure tells of the value

An error of a built-in redactor tells the shape of the value at most, but for the piece of a cookie
header that it quotes (`RuleSpec.quoted?_eq_some_iff`). So the answers to values that differ in strings
of members only are the same failure but for the quoted piece, or replacements that differ in
strings of members only (`RuleSpec.mirrored_answer`).
-/

namespace Redaction

/-! ### What errors quote -/

namespace RedactError

/-- The error without the text that it quotes. -/
def unquoted : RedactError → RedactError
  | malformedCookie _ => malformedCookie ""
  | e => e

/-- The text that the error quotes. -/
def quote? : RedactError → Option String
  | malformedCookie segment => some segment
  | _ => none

end RedactError

/-- The first piece of a header without an equals sign, without the blanks around it. -/
def Cookies.malformed? (raw : String) : Option String :=
  ((Text.pieces ';' raw.toList).find? fun p => '=' ∉ p).map fun p => String.ofList (Text.trim p)

theorem Cookies.mask_eq_error_iff {names : Selection} {raw : String} {e : RedactError} :
    mask names raw = .error e ↔ ∃ s, malformed? raw = some s ∧ e = .malformedCookie s := by
  have hmask : mask names raw = .error e ↔ mask? names raw = .error e := by
    rw [mask, bind_eq_error_iff]
    constructor
    · rintro (h | ⟨out?, -, h⟩)
      · exact h
      · cases h
    · exact Or.inl
  rw [hmask, mask?_eq_error_iff, parse_eq_error_iff]
  constructor
  · rintro ⟨before, piece, after, hpieces, hbefore, hpiece, he⟩
    have hfind : (Text.pieces ';' raw.toList).find? (fun p => '=' ∉ p) = some piece := by
      rw [List.find?_eq_some_iff_append]
      refine ⟨decide_eq_true hpiece, before, after, hpieces, fun p hp => ?_⟩
      simpa using hbefore p hp
    exact ⟨_, by rw [malformed?, hfind]; rfl, he⟩
  · rintro ⟨s, hs, he⟩
    obtain ⟨piece, hfind, rfl⟩ := Option.map_eq_some_iff.mp hs
    obtain ⟨hpiece, before, after, hpieces, hbefore⟩ := List.find?_eq_some_iff_append.mp hfind
    refine ⟨before, piece, after, hpieces, fun p hp => ?_, of_decide_eq_true hpiece, he⟩
    simpa using hbefore p hp

/-- What a rule tells of a value if it fails on it: of a cookie header that is not empty the first
piece without an equals sign, and nothing of another value. -/
def RuleSpec.quoted? (r : RuleSpec) (v : Json) : Option String :=
  match r.action, v with
  | .scrubCookies, .string raw => if raw = "" then none else Cookies.malformed? raw
  | _, _ => none

namespace Entries

variable {names : Selection} {maskString : String → Except RedactError String} {v : Json}
  {e : RedactError}

theorem quote?_maskElements {items : List Json} {i : Nat}
    (h : maskElements names i items = .error e) : e.quote? = none := by
  obtain ⟨-, j, rfl, -⟩ := maskElements_eq_error_iff.mp h
  rfl

theorem mask_string_eq_error_iff {s : String} :
    mask names maskString (.string s) = .error e ↔ s ≠ "" ∧ maskString s = .error e := by
  by_cases hs : s = ""
  · rw [mask_of_isFalsy (isFalsy_string.mpr hs)]
    exact ⟨fun h => (by cases h), fun h => absurd hs h.1⟩
  · rw [mask_string hs, map_eq_error_iff]
    exact (and_iff_right hs).symm

/-- An error quotes something only if the value is a string. -/
theorem quote?_mask (hstring : ∀ s e, v = .string s → maskString s = .error e → e.quote? = none)
    (h : mask names maskString v = .error e) : e.quote? = none := by
  cases v with
  | object ms =>
    rw [mask_object] at h
    cases h
  | array items =>
    rw [mask_array, map_eq_error_iff] at h
    exact quote?_maskElements h
  | string s => exact hstring s e rfl (mask_string_eq_error_iff.mp h).2
  | _ =>
    unfold mask at h
    split at h
    · cases h
    · rw [← Except.error.inj h]
      rfl

end Entries

/-! ### Answers to alike values -/

/-- Both are results that are related, or both are errors that are the same but for what they
quote. -/
inductive Mirrored {α : Type} (R : α → α → Prop) :
    Except RedactError α → Except RedactError α → Prop
  | ok {a b : α} (h : R a b) : Mirrored R (.ok a) (.ok b)
  | error {e e' : RedactError} (h : e.unquoted = e'.unquoted) : Mirrored R (.error e) (.error e')

theorem Mirrored.refl {α : Type} {R : α → α → Prop} (h : ∀ a, R a a) (x : Except RedactError α) :
    Mirrored R x x := by
  cases x with
  | ok a => exact .ok (h a)
  | error e => exact .error rfl

theorem Mirrored.imp {α : Type} {R S : α → α → Prop} {x y : Except RedactError α}
    (hRS : ∀ a b, R a b → S a b) (h : Mirrored R x y) : Mirrored S x y := by
  cases h with
  | ok h => exact .ok (hRS _ _ h)
  | error h => exact .error h

theorem Mirrored.bind {α β : Type} {R : α → α → Prop} {S : β → β → Prop}
    {x y : Except RedactError α} {f g : α → Except RedactError β} (h : Mirrored R x y)
    (hfg : ∀ a b, R a b → Mirrored S (f a) (g b)) : Mirrored S (x >>= f) (y >>= g) := by
  cases h with
  | ok h => exact hfg _ _ h
  | error h => exact .error h

theorem Mirrored.map {α β : Type} {R : α → α → Prop} {S : β → β → Prop}
    {x y : Except RedactError α} {f g : α → β} (h : Mirrored R x y)
    (hfg : ∀ a b, R a b → S (f a) (g b)) : Mirrored S (x.map f) (y.map g) := by
  cases h with
  | ok h => exact .ok (hfg _ _ h)
  | error h => exact .error h

namespace Entries

open Json Position

variable {names : Selection} {v w : Json}

theorem get?_maskMembers (names : Selection) (k : String) (ms : Members) :
    Members.get? k (maskMembers names ms) =
      (Members.get? k ms).map fun v => if names.selects k then maskValue else v := by
  induction ms with
  | nil => rfl
  | cons m ms ih =>
    obtain ⟨k₀, v₀⟩ := m
    by_cases hk : k₀ = k
    · subst hk
      simp [maskMembers, Members.get?]
    · have htail : Members.get? k (maskMembers names ((k₀, v₀) :: ms)) =
          Members.get? k (maskMembers names ms) := if_neg hk
      rw [htail, ih, Members.get?, if_neg hk]

theorem alike_maskMembers {ms ms' : Members} (h : Alike OfMember (.object ms) (.object ms')) :
    Alike OfMember (.object (maskMembers names ms)) (.object (maskMembers names ms')) := by
  obtain ⟨hkeys, hvalues⟩ := alike_object.mp h
  refine alike_object.mpr ⟨?_, fun k v w hv hw => ?_⟩
  · rw [keys_maskMembers, keys_maskMembers, hkeys]
  · rw [get?_maskMembers, Option.map_eq_some_iff] at hv hw
    obtain ⟨v, hv, rfl⟩ := hv
    obtain ⟨w, hw, rfl⟩ := hw
    split
    · exact .refl _ _
    · exact hvalues k v w hv hw

/-- The first element of an array is no member, so it is a name in both values or in none. -/
theorem selectsValue_eq (h : Alike OfMember v w) :
    selectsValue names v = selectsValue names w := by
  have ho : v.outline = w.outline := h.outline_eq not_ofMember_nil
  cases v <;> cases w <;> simp only [outline, reduceCtorEq, Outline.string.injEq] at ho <;>
    simp only [selectsValue]
  rw [ho]

theorem mirrored_maskElement {i : Nat} {item item' : Json} (h : Alike OfMember item item') :
    Mirrored (Alike OfMember) (maskElement names i item) (maskElement names i item') := by
  have ho : item.outline = item'.outline := h.outline_eq not_ofMember_nil
  have hpair : ∀ {v w : Json}, Alike OfMember v w →
      Alike OfMember (.array [v, maskValue]) (.array [w, maskValue]) := by
    intro v w hvw
    exact alike_array.mpr (.cons hvw (.cons (.refl _ _) .nil))
  cases item <;> cases item' <;> simp only [outline, reduceCtorEq] at ho
  case array.array vs ws =>
    cases alike_array.mp h with
    | nil =>
      cases names with
      | all => exact .error rfl
      | only keys => exact .ok h
    | cons hvw _ =>
      cases names with
      | all => exact .ok (hpair hvw)
      | only keys =>
        rw [maskElement, maskElement, selectsValue_eq hvw]
        split
        · exact .ok (hpair hvw)
        · exact .ok h
  all_goals
    cases names with
    | all => exact .error rfl
    | only keys => exact .ok h

theorem mirrored_maskElements {i : Nat} {items items' : List Json}
    (h : List.Forall₂ (Alike OfMember) items items') :
    Mirrored (List.Forall₂ (Alike OfMember)) (maskElements names i items)
      (maskElements names i items') := by
  induction h generalizing i with
  | nil => exact .ok .nil
  | cons hhead _ ih =>
    refine (mirrored_maskElement hhead).bind fun w w' hw => ?_
    exact ih.bind fun ws ws' hws => .ok (.cons hw hws)

/-- Values that differ in strings of their members are masked alike, or both are not for the same
reason. -/
theorem mirrored_mask (maskString : String → Except RedactError String) (h : Alike OfMember v w) :
    Mirrored (Alike OfMember) (mask names maskString v) (mask names maskString w) := by
  have ho : v.outline = w.outline := h.outline_eq not_ofMember_nil
  cases v <;> cases w <;> simp only [outline, reduceCtorEq, Outline.bool.injEq,
    Outline.number.injEq, Outline.string.injEq] at ho
  case array.array vs ws =>
    rw [mask_array, mask_array]
    exact (mirrored_maskElements (alike_array.mp h)).map fun _ _ hws => alike_array.mpr hws
  case object.object ms ms' =>
    rw [mask_object, mask_object]
    exact .ok (alike_maskMembers h)
  -- other values with the same outline are the same
  case null.null => exact .refl (Alike.refl OfMember) _
  all_goals
    rw [ho]
    exact .refl (Alike.refl OfMember) _

/-- The same of values that may be strings themselves, if both are masked or none is. -/
theorem mirrored_mask_of_iff {maskString : String → Except RedactError String}
    (hstring : ∀ s e, maskString s = .error e → e.unquoted = .malformedCookie "")
    (h : Alike BelowMember v w)
    (hf : (∃ e, mask names maskString v = .error e) ↔ ∃ e, mask names maskString w = .error e) :
    Mirrored (Alike BelowMember) (mask names maskString v) (mask names maskString w) := by
  rcases h.ofMember_or_strings with h | ⟨x, y, rfl, rfl⟩
  · refine (mirrored_mask maskString h).imp fun a b hab => ?_
    exact hab.mono fun p => Or.inr
  · cases hx : mask names maskString (.string x) <;>
      cases hy : mask names maskString (.string y) <;> rw [hx, hy] at hf
    case ok.ok =>
      obtain ⟨x', rfl⟩ := exists_string_of_mask hx
      obtain ⟨y', rfl⟩ := exists_string_of_mask hy
      exact .ok (.strings (Or.inl rfl) x' y')
    case ok.error v e =>
      obtain ⟨e', he'⟩ := hf.mpr ⟨e, rfl⟩
      cases he'
    case error.ok e w =>
      obtain ⟨e', he'⟩ := hf.mp ⟨e, rfl⟩
      cases he'
    case error.error e e' =>
      have he := hstring x e (mask_string_eq_error_iff.mp hx).2
      have he' := hstring y e' (mask_string_eq_error_iff.mp hy).2
      exact .error (he.trans he'.symm)

end Entries

theorem Redactor.answer_named (name : String) (redact : Json → Except RedactError Json)
    (v : Json) : (named name redact).answer v = redact v := by
  cases h : redact v <;> simp only [answer, named, h]

namespace RuleSpec

open Json Position

variable {r : RuleSpec} {v w : Json} {e : RedactError}

/-- **The answers to alike values are alike.** If the redactor fails on both values, the errors are
the same but for what they quote; if on none, the replacements differ in strings of members only. -/
theorem mirrored_answer (r : RuleSpec) (h : Alike BelowMember v w)
    (hf : (∃ e, r.redactor.answer v = .error e) ↔ ∃ e, r.redactor.answer w = .error e) :
    Mirrored (Alike BelowMember) (r.redactor.answer v) (r.redactor.answer w) := by
  unfold redactor at hf ⊢
  cases ha : r.action <;> rw [ha] at hf
  · exact .ok (.refl _ maskValue)
  · simp only [Redactor.cookies, Redactor.answer_named] at hf ⊢
    refine Entries.mirrored_mask_of_iff (fun s e he => ?_) h hf
    obtain ⟨segment, -, rfl⟩ := Cookies.mask_eq_error_iff.mp he
    rfl
  · simp only [Redactor.queryString, Redactor.answer_named] at hf ⊢
    refine Entries.mirrored_mask_of_iff (fun s e he => ?_) h hf
    cases he

/-- **What an error quotes is what the rule tells of the value.** -/
theorem quoted?_eq_some_iff {text : String} : r.quoted? v = some text ↔
    ∃ e, r.redactor.answer v = .error e ∧ e.quote? = some text := by
  have hnone : ∀ {names : Selection} {maskString : String → Except RedactError String},
      (∀ s e, v = .string s → maskString s = .error e → e.quote? = none) →
      ¬ ∃ e, Entries.mask names maskString v = .error e ∧ e.quote? = some text := by
    rintro names maskString hstring ⟨e, he, hquote⟩
    have : e.quote? = none := Entries.quote?_mask hstring he
    rw [this] at hquote
    cases hquote
  unfold redactor quoted?
  cases ha : r.action with
  | scrub =>
    have hok : Redactor.scrub.answer v = .ok maskValue := rfl
    simp [hok]
  | scrubQueryString =>
    simp only [Redactor.queryString, Redactor.answer_named, reduceCtorEq, false_iff]
    refine hnone fun s e _ he => ?_
    cases he
  | scrubCookies =>
    simp only [Redactor.cookies, Redactor.answer_named]
    cases v with
    | string s =>
      simp only [Entries.mask_string_eq_error_iff, Cookies.mask_eq_error_iff]
      by_cases hs : s = ""
      · simp [hs]
      · simp [hs, RedactError.quote?]
    | _ =>
      simp only [reduceCtorEq, false_iff]
      exact hnone fun s e hs => by cases hs

end RuleSpec

end Redaction
