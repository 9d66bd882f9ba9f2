import Redaction.Proofs.Mask.Shapes
import Redaction.Proofs.Mask.Strings

/-!
# Masked entries are left as they are

To mask the entries of a value a second time changes nothing, whatever shape the value has
(`Entries.mask_mask`). A masked member, or a masked pair, is still selected and is masked anew, with
the same result; a masked string is read back.
-/

namespace Redaction.Entries

variable {names : Selection} {i : Nat} {item w : Json} {items ws : List Json}

theorem maskMembers_maskMembers (names : Selection) (ms : Members) :
    maskMembers names (maskMembers names ms) = maskMembers names ms := by
  unfold maskMembers
  rw [List.map_map]
  refine List.map_congr_left fun (name, v) _ => Prod.ext rfl ?_
  show (if names.selects name then maskValue else
    if names.selects name then maskValue else v) = if names.selects name then maskValue else v
  split <;> rfl

theorem ElementMasked.masked (h : ElementMasked names item w) : ElementMasked names w w := by
  cases h with
  | every name rest => exact .every name [maskValue]
  | selected rest hname => exact .selected [maskValue] hname
  | kept hkept => exact .kept hkept

theorem maskElements_maskElements (h : maskElements names i items = .ok ws) :
    maskElements names i ws = .ok ws := by
  refine maskElements_eq_ok_iff.mpr (List.forall₂_same.mpr fun w hw => ?_)
  obtain ⟨item, -, hitem⟩ := exists_of_forall₂ (maskElements_eq_ok_iff.mp h) hw
  exact hitem.masked

/-- **To mask the entries of a value twice is to mask them once.** -/
theorem mask_mask {maskString : String → Except RedactError String} {v w : Json}
    (hs : ∀ s s', maskString s = .ok s' → maskString s' = .ok s')
    (h : mask names maskString v = .ok w) : mask names maskString w = .ok w := by
  rcases mask_eq_ok h with ⟨hv, rfl⟩ | ⟨ms, rfl, rfl⟩ | ⟨items, ws, rfl, rfl, hws⟩ |
    ⟨s, s', rfl, rfl, hs'⟩
  · exact mask_of_isFalsy hv
  · rw [mask_object, maskMembers_maskMembers]
  · rw [mask_array, maskElements_maskElements hws]
    rfl
  · -- an empty result is left as it is
    by_cases hempty : s' = ""
    · exact mask_of_isFalsy (isFalsy_string.mpr hempty)
    · rw [mask_string hempty, hs s s' hs']
      rfl

end Redaction.Entries
