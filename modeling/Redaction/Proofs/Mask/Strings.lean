import Redaction.Mask.Cookies
import Redaction.Mask.Query
import Redaction.Proofs.Text.Cutting
import Redaction.Proofs.Text.Form
import Redaction.Proofs.Traversal

/-!
# Masked headers and query strings are read back

What is written from the entries of a cookie header or a query string is read as these entries
(`Cookies.parse_render`, `Query.parse_render`). A masked string is written from masked entries, and
masking these again changes nothing. So to mask a string twice is to mask it once
(`Cookies.mask_mask`, `Query.mask_mask`).
-/

namespace Redaction

/-! ### Entries -/

namespace Selection

variable {names : Selection}

theorem masks_maskEntry (entry : String × String) :
    names.masks (names.maskEntry entry) = names.masks entry := by
  unfold maskEntry
  split
  · next h =>
    have hs : names.selects entry.1 = true := ((Bool.and_eq_true _ _).mp h).1
    rw [h, masks, hs]
    rfl
  · rfl

theorem maskEntry_maskEntry (entry : String × String) :
    names.maskEntry (names.maskEntry entry) = names.maskEntry entry := by
  rw [maskEntry, masks_maskEntry]
  split
  · next h => rw [maskEntry, if_pos h]
  · rfl

theorem map_maskEntry_twice (entries : List (String × String)) :
    (entries.map names.maskEntry).map names.maskEntry = entries.map names.maskEntry := by
  rw [List.map_map]
  exact List.map_congr_left fun e _ => maskEntry_maskEntry e

theorem any_map_maskEntry (entries : List (String × String)) :
    (entries.map names.maskEntry).any names.masks = entries.any names.masks := by
  rw [List.any_map]
  exact congrArg entries.any (funext fun e => masks_maskEntry e)

end Selection

/-! ### Cookie headers -/

namespace Cookies

open Text

/-- An entry as it is read from a header: trimmed, and without the characters at which a header is
cut. -/
structure Plain (e : String × String) : Prop where
  trim_name : trim e.1.toList = e.1.toList
  trim_value : trim e.2.toList = e.2.toList
  equals_name : '=' ∉ e.1.toList
  semicolon_name : ';' ∉ e.1.toList
  semicolon_value : ';' ∉ e.2.toList

/-- An entry as it is written. -/
def written (e : String × String) : List Char := e.1.toList ++ '=' :: e.2.toList

variable {e : String × String} {entries : List (String × String)} {piece : List Char}
  {raw : String} {names : Selection}

theorem plain_of_entry (hp : ';' ∉ piece) (h : entry piece = .ok e) : Plain e := by
  unfold entry at h
  split at h
  · next name value hcut =>
    obtain ⟨heq, rfl⟩ := cut?_eq_some hcut
    cases h
    refine ⟨?_, ?_, ?_, ?_, ?_⟩ <;> rw [String.toList_ofList]
    · exact trim_trim name
    · exact trim_trim value
    · exact fun hm => heq (mem_of_mem_trim hm)
    · exact fun hm => hp (List.mem_append_left _ (mem_of_mem_trim hm))
    · exact fun hm => hp (List.mem_append_right _ (List.mem_cons_of_mem _ (mem_of_mem_trim hm)))
  · cases h

theorem entry_written (h : Plain e) : entry (written e) = .ok e := by
  rw [entry, written, cut?_append h.equals_name]
  dsimp only
  rw [h.trim_name, h.trim_value, String.ofList_toList, String.ofList_toList]

/-- Every entry but the first is written after a blank. -/
theorem entry_blank_written (h : Plain e) : entry (' ' :: written e) = .ok e := by
  have hname : '=' ∉ ' ' :: e.1.toList :=
    List.not_mem_cons_of_ne_of_not_mem (by decide) h.equals_name
  have hblank : isBlank ' ' = true := by decide
  rw [entry, written, ← List.cons_append, cut?_append hname]
  dsimp only
  rw [trim_cons hblank, h.trim_name, h.trim_value, String.ofList_toList, String.ofList_toList]

theorem semicolon_written (h : Plain e) : ';' ∉ written e := by
  intro hm
  rcases List.mem_append.mp hm with hm | hm
  · exact h.semicolon_name hm
  · rcases List.mem_cons.mp hm with hm | hm
    · cases hm
    · exact h.semicolon_value hm

theorem toList_render (e : String × String) (entries : List (String × String)) :
    (render (e :: entries)).toList =
      [';'].intercalate (written e :: entries.map fun e => ' ' :: written e) := by
  have hwritten : ∀ e : String × String, (s!"{e.1}={e.2}").toList = written e := by
    intro e
    show (e.1 ++ "=" ++ e.2).toList = _
    simp [written]
  have hmap : ((e :: entries).map fun e => s!"{e.1}={e.2}").map String.toList =
      written e :: entries.map written := by
    rw [List.map_map, ← List.map_cons]
    exact List.map_congr_left fun e _ => hwritten e
  rw [render, String.toList_intercalate]
  show [';', ' '].intercalate (((e :: entries).map fun e => s!"{e.1}={e.2}").map String.toList) = _
  rw [hmap, intercalate_pair, List.map_map]
  rfl

/-- What is read from a header is plain, and it is something. -/
theorem plain_of_parse (h : parse raw = .ok entries) :
    entries ≠ [] ∧ ∀ e ∈ entries, Plain e := by
  refine ⟨?_, fun e he => ?_⟩
  · rintro rfl
    have hlen : (pieces ';' raw.toList).length = 0 := length_of_mapM_eq_ok h
    exact pieces_ne_nil ';' raw.toList (List.eq_nil_of_length_eq_zero hlen)
  · obtain ⟨piece, hpiece, hentry⟩ := exists_of_mapM_eq_ok h he
    exact plain_of_entry (not_mem_of_mem_pieces hpiece) hentry

/-- **What is written from plain entries is read as these entries.** -/
theorem parse_render (hne : entries ≠ []) (h : ∀ e ∈ entries, Plain e) :
    parse (render entries) = .ok entries := by
  obtain ⟨e, entries, rfl⟩ := List.exists_cons_of_ne_nil hne
  have he : Plain e := h e List.mem_cons_self
  have hrest : ∀ e ∈ entries, Plain e := fun e' he' => h e' (List.mem_cons_of_mem e he')
  have hsemicolon : ∀ p ∈ written e :: entries.map (fun e => ' ' :: written e), ';' ∉ p := by
    intro p hp
    rcases List.mem_cons.mp hp with rfl | hp
    · exact semicolon_written he
    · obtain ⟨e', he', rfl⟩ := List.mem_map.mp hp
      exact List.not_mem_cons_of_ne_of_not_mem (by decide) (semicolon_written (hrest e' he'))
  rw [parse, toList_render, pieces_intercalate (List.cons_ne_nil _ _) hsemicolon, mapM_eq_ok_iff]
  refine .cons (entry_written he) (List.forall₂_map_left_iff.mpr (List.forall₂_same.mpr ?_))
  exact fun e' he' => entry_blank_written (hrest e' he')

theorem plain_maskEntry (h : Plain e) : Plain (names.maskEntry e) := by
  have htrim : trim maskText.toList = maskText.toList := by decide
  have hsemicolon : ';' ∉ maskText.toList := by decide
  unfold Selection.maskEntry
  split
  · exact ⟨h.trim_name, htrim, h.equals_name, h.semicolon_name, hsemicolon⟩
  · exact h

/-- Masked entries of a header are written so that they are read again. -/
theorem parse_render_map_maskEntry (h : parse raw = .ok entries) :
    parse (render (entries.map names.maskEntry)) = .ok (entries.map names.maskEntry) := by
  obtain ⟨hne, hplain⟩ := plain_of_parse h
  refine parse_render (fun hnil => hne (List.map_eq_nil_iff.mp hnil)) fun e he => ?_
  obtain ⟨e', he', rfl⟩ := List.mem_map.mp he
  exact plain_maskEntry (hplain e' he')

/-- What is written for a header that can be read, if anything is masked in it. -/
theorem mask?_of_parse (h : parse raw = .ok entries) : mask? names raw = .ok (
    if entries.any names.masks then some (render (entries.map names.maskEntry)) else none) := by
  have hmask? : mask? names raw =
      if entries.any names.masks then .ok (some (render (entries.map names.maskEntry)))
      else .ok none := by
    rw [mask?, h]
    rfl
  rw [hmask?]
  split <;> rfl

/-- What masking makes of a header that can be read. -/
theorem mask_of_parse (h : parse raw = .ok entries) :
    mask names raw =
      .ok (if entries.any names.masks then render (entries.map names.maskEntry) else raw) := by
  rw [mask, mask?_of_parse h]
  by_cases hany : entries.any names.masks = true
  · rw [if_pos hany, if_pos hany]
    rfl
  · rw [if_neg hany, if_neg hany]
    rfl

/-- **To mask a header twice is to mask it once.** -/
theorem mask_mask {out : String} (h : mask names raw = .ok out) : mask names out = .ok out := by
  cases hparse : parse raw with
  | error e =>
    rw [mask, mask?, hparse] at h
    cases h
  | ok entries =>
    have hout := (mask_of_parse hparse).symm.trans h
    by_cases hany : entries.any names.masks = true
    · rw [if_pos hany] at hout
      rw [← Except.ok.inj hout, mask_of_parse (parse_render_map_maskEntry hparse),
        Selection.any_map_maskEntry, if_pos hany, Selection.map_maskEntry_twice]
    · rw [if_neg hany] at hout
      rw [← Except.ok.inj hout, mask_of_parse hparse, if_neg hany]

end Cookies

/-! ### Query strings -/

namespace Query

open Text

variable {entries : List (String × String)} {raw : String} {names : Selection}

/-- An entry as it is written. -/
def written (e : String × String) : List Char :=
  Form.encode e.1.toList ++ '=' :: Form.encode e.2.toList

theorem entry_written (e : String × String) : entry (written e) = e := by
  have hname : '=' ∉ Form.encode e.1.toList := fun h => (Form.ne_of_mem_encode h).2 rfl
  rw [entry, written, cut?_append hname]
  dsimp only [Option.getD_some]
  rw [Form.decode_encode, Form.decode_encode, String.ofList_toList, String.ofList_toList]

theorem ampersand_written (e : String × String) : '&' ∉ written e := by
  intro hm
  rcases List.mem_append.mp hm with hm | hm
  · exact (Form.ne_of_mem_encode hm).1 rfl
  · rcases List.mem_cons.mp hm with hm | hm
    · cases hm
    · exact (Form.ne_of_mem_encode hm).1 rfl

/-- **What is written from entries is read as these entries.** -/
theorem parse_render (entries : List (String × String)) : parse (render entries) = entries := by
  have hlist : (render entries).toList = ['&'].intercalate (entries.map written) := by
    rw [render, String.toList_ofList]
    rfl
  cases entries with
  | nil => rfl
  | cons e entries =>
    have hampersand : ∀ p ∈ (e :: entries).map written, '&' ∉ p := by
      intro p hp
      obtain ⟨e', -, rfl⟩ := List.mem_map.mp hp
      exact ampersand_written e'
    have hwritten : ∀ p ∈ (e :: entries).map written, (!p.isEmpty) = true := by
      intro p hp
      obtain ⟨e', -, rfl⟩ := List.mem_map.mp hp
      rw [written]
      cases Form.encode e'.1.toList <;> rfl
    have hne : (e :: entries).map written ≠ [] := List.cons_ne_nil _ _
    rw [parse, hlist, pieces_intercalate hne hampersand, List.filter_eq_self.mpr hwritten,
      List.map_map]
    exact (List.map_congr_left fun e' _ => entry_written e').trans (List.map_id _)

/-- What masking makes of a query string. -/
theorem mask_eq (names : Selection) (raw : String) :
    mask names raw =
      if (parse raw).any names.masks then render ((parse raw).map names.maskEntry) else raw := by
  have hmask? : mask? names raw =
      if (parse raw).any names.masks then some (render ((parse raw).map names.maskEntry))
      else none := rfl
  rw [mask, hmask?]
  split <;> rfl

/-- Without an equals sign every value is empty, and nothing is masked. -/
theorem mask_of_not_mem (names : Selection) (h : '=' ∉ raw.toList) : mask names raw = raw := by
  have hnone : ¬ (parse raw).any names.masks = true := by
    intro hany
    obtain ⟨e, he, hmasks⟩ := List.any_eq_true.mp hany
    obtain ⟨piece, hpiece, rfl⟩ := List.mem_map.mp he
    have hequals : '=' ∉ piece := fun hm => h (mem_of_mem_pieces (List.mem_filter.mp hpiece).1 hm)
    have hvalue : (entry piece).2 = "" := by
      rw [entry, cut?_eq_none hequals]
      rfl
    rw [Selection.masks, hvalue, Bool.and_eq_true] at hmasks
    cases hmasks.2
  rw [mask_eq, if_neg hnone]

/-- **To mask a query string twice is to mask it once.** -/
theorem mask_mask (names : Selection) (raw : String) :
    mask names (mask names raw) = mask names raw := by
  rw [mask_eq names raw]
  split
  · next hany =>
    rw [mask_eq, parse_render, Selection.any_map_maskEntry, if_pos hany,
      Selection.map_maskEntry_twice]
  · next hany => rw [mask_eq, if_neg hany]

end Query

end Redaction
