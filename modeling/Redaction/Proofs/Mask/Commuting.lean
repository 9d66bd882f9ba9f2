import Redaction.Proofs.Mask.Shapes
import Redaction.Proofs.Mask.Strings

/-!
# Masking and reading commute

Reading a masked query string or cookie header gives the entries of the original, with the values
masked that are selected and not empty (`Query.mask_commutes`, `Cookies.mask?_commutes`). A string
with no such entry is left character for character. A query string is always read; a header is not
if a piece has no equals sign, and then the first such piece is the error.
-/

namespace Redaction

namespace Selection

variable {names : Selection} {entries : List (String × String)}

theorem masks_iff {e : String × String} :
    names.masks e = true ↔ names.selects e.1 = true ∧ e.2 ≠ "" := by
  simp [masks]

theorem any_masks_eq_false :
    entries.any names.masks = false ↔ ∀ e ∈ entries, names.selects e.1 = true → e.2 = "" := by
  rw [List.any_eq_false]
  refine forall₂_congr fun e _ => ?_
  rw [masks_iff, not_and, not_not]

theorem maskEntry_eq (names : Selection) : names.maskEntry = fun e : String × String =>
    if names.selects e.1 = true ∧ e.2 ≠ "" then (e.1, maskText) else e := by
  funext e
  unfold maskEntry
  by_cases h : names.masks e = true
  · rw [if_pos h, if_pos (masks_iff.mp h)]
  · rw [if_neg h, if_neg fun hm => h (masks_iff.mpr hm)]

end Selection

/-- What a redactor of entries makes of a string that is not empty. -/
theorem redact_string {name raw out : String} {names : Selection}
    {maskString : String → Except RedactError String} (hne : raw ≠ "")
    (h : maskString raw = .ok out) :
    (Redactor.named name (Entries.mask names maskString)).redact (.string raw) =
      .value (.string out) := by
  rw [Redactor.redact_named_eq_value_iff, Entries.mask_string hne, h]
  rfl

/-! ### Query strings -/

namespace Query

open Text

variable {piece name value : List Char}

theorem entry_of_cut (h : cut? '=' piece = some (name, value)) :
    entry piece = (String.ofList (Form.decode name), String.ofList (Form.decode value)) := by
  rw [entry, h]
  rfl

theorem mask?_eq (names : Selection) (raw : String) :
    mask? names raw = if (parse raw).any names.masks
      then some (render ((parse raw).map names.maskEntry)) else none := rfl

theorem parse_mask (names : Selection) (raw : String) :
    parse (mask names raw) = (parse raw).map names.maskEntry := by
  rw [mask_eq]
  split
  · exact parse_render _
  · next hany =>
    -- an entry that is not masked stays
    have hstays : ∀ e ∈ parse raw, names.maskEntry e = e := by
      intro e he
      have hmasks : ¬ names.masks e = true := fun hm => hany (List.any_eq_true.mpr ⟨e, he, hm⟩)
      rw [Selection.maskEntry, if_neg hmasks]
    exact ((List.map_congr_left hstays).trans (List.map_id _)).symm

/-- **Masking a query string commutes with reading it.** What the redactor returns is read as the
entries of the original with the selected values masked that are not empty. Nothing is rewritten if
there is no such entry. What stands behind the first equals sign of a piece is read as something, so
it is masked if its name is selected. -/
theorem mask_commutes (names : Selection) (raw : String) :
    let out := mask names raw
    (Redactor.queryString names).redact (.string raw) = .value (.string out) ∧
    parse out = (parse raw).map (fun e =>
      if names.selects e.1 = true ∧ e.2 ≠ "" then (e.1, maskText) else e) ∧
    (mask? names raw = none ↔ ∀ e ∈ parse raw, names.selects e.1 = true → e.2 = "") ∧
    (mask? names raw = none → out = raw) ∧
    List.Forall₂ (fun piece e => ∀ name value, cut? '=' piece = some (name, value) → value ≠ [] →
        Form.decode value ≠ [] ∧ (names.selects (String.ofList (Form.decode name)) = true →
          e = (String.ofList (Form.decode name), maskText)))
      ((pieces '&' raw.toList).filter (!·.isEmpty)) (parse out) := by
  intro out
  have hread : parse out = (parse raw).map names.maskEntry := parse_mask names raw
  refine ⟨?_, ?_, ?_, ?_, ?_⟩
  · by_cases hempty : raw = ""
    · subst hempty
      rfl
    · exact redact_string hempty rfl
  · rw [hread, Selection.maskEntry_eq]
  · rw [mask?_eq, ← Selection.any_masks_eq_false]
    simp
  · intro hnone
    show (mask? names raw).getD raw = raw
    rw [hnone, Option.getD_none]
  · rw [hread, parse, List.map_map, List.forall₂_map_right_iff]
    refine List.forall₂_same.mpr fun piece _ name value hcut hvalue => ?_
    have hdecode : Form.decode value ≠ [] := fun h => hvalue ((Form.decode_eq_nil_iff value).mp h)
    refine ⟨hdecode, fun hname => ?_⟩
    have hmasks : names.masks (entry piece) = true := by
      rw [entry_of_cut hcut, Selection.masks_iff]
      exact ⟨hname, fun h => hdecode (by simpa using congrArg String.toList h)⟩
    show names.maskEntry (entry piece) = _
    rw [Selection.maskEntry, if_pos hmasks, entry_of_cut hcut]

/-- A name may be escaped, a value may be no text, and a value that is empty stays even if every
entry is masked. -/
theorem mask_commutes_token :
    let raw := "t%6Fken=%FF&q=a+b&token=&=x"
    let some := mask (.only ["token"]) raw
    let all := mask .all raw
    (Redactor.queryString (.only ["token"])).redact (.string raw) = .value (.string some) ∧
      parse some = [("token", "[Scrubbed]"), ("q", "a b"), ("token", ""), ("", "x")] ∧
      (Redactor.queryString .all).redact (.string raw) = .value (.string all) ∧
      parse all = [("token", "[Scrubbed]"), ("q", "[Scrubbed]"), ("token", ""),
        ("", "[Scrubbed]")] := by
  intro raw some all
  have hentries : parse raw = [("token", "�"), ("q", "a b"), ("token", ""), ("", "x")] := by
    decide +kernel
  obtain ⟨hsome, hreadSome, -⟩ := mask_commutes (.only ["token"]) raw
  obtain ⟨hall, hreadAll, -⟩ := mask_commutes .all raw
  rw [hentries] at hreadSome hreadAll
  exact ⟨hsome, hreadSome, hall, hreadAll⟩

end Query

/-! ### Cookie headers -/

namespace Cookies

open Text

variable {piece : List Char} {raw : String} {names : Selection}

/-- The name before the first equals sign of a piece and the value behind it, without the blanks
around them. -/
def nameAndValue (piece : List Char) : String × String :=
  (String.ofList (trim (piece.takeWhile (· ≠ '='))),
    String.ofList (trim ((piece.dropWhile (· ≠ '=')).drop 1)))

theorem entry_of_mem (h : '=' ∈ piece) : entry piece = .ok (nameAndValue piece) := by
  rw [entry, cut?_of_mem h]
  rfl

theorem entry_of_not_mem (h : '=' ∉ piece) :
    entry piece = .error (.malformedCookie (String.ofList (trim piece))) := by
  rw [entry, cut?_eq_none h]

theorem parse_of_forall_mem (h : ∀ p ∈ pieces ';' raw.toList, '=' ∈ p) :
    parse raw = .ok ((pieces ';' raw.toList).map nameAndValue) := by
  rw [parse, mapM_eq_ok_iff, List.forall₂_map_right_iff]
  exact List.forall₂_same.mpr fun p hp => entry_of_mem (h p hp)

/-- The first piece without an equals sign is why a header is not read. -/
theorem parse_eq_error_iff {e : RedactError} : parse raw = .error e ↔
    ∃ before piece after, pieces ';' raw.toList = before ++ piece :: after ∧
      (∀ p ∈ before, '=' ∈ p) ∧ '=' ∉ piece ∧
        e = .malformedCookie (String.ofList (trim piece)) := by
  have hok : ∀ p : List Char, (∃ c, entry p = .ok c) ↔ '=' ∈ p := by
    intro p
    by_cases hp : '=' ∈ p
    · exact ⟨fun _ => hp, fun _ => ⟨_, entry_of_mem hp⟩⟩
    · rw [entry_of_not_mem hp]
      exact ⟨fun ⟨c, hc⟩ => (by cases hc), fun h => absurd h hp⟩
  have herror : ∀ p : List Char, entry p = .error e ↔
      '=' ∉ p ∧ e = .malformedCookie (String.ofList (trim p)) := by
    intro p
    by_cases hp : '=' ∈ p
    · rw [entry_of_mem hp]
      exact ⟨fun h => (by cases h), fun h => absurd hp h.1⟩
    · rw [entry_of_not_mem hp]
      exact ⟨fun h => ⟨hp, (Except.error.inj h).symm⟩, fun h => by rw [h.2]⟩
  rw [parse, mapM_eq_error_iff]
  simp only [hok, herror]

theorem mask?_eq_error_iff {e : RedactError} :
    mask? names raw = .error e ↔ parse raw = .error e := by
  rw [mask?, bind_eq_error_iff]
  constructor
  · rintro (h | ⟨entries, -, h⟩)
    · exact h
    · split at h <;> cases h
  · exact Or.inl

/-- **Masking a cookie header commutes with reading it.** A header is not masked because of its
first piece without an equals sign, whatever stands before it. Another is read as its names and
values; nothing is rewritten if no selected name has a value, and else the masked header is read as
the same names and values, with the selected values masked that are not empty. -/
theorem mask?_commutes (names : Selection) (raw : String) :
    (∀ e, mask? names raw = .error e ↔
      ∃ before piece after, pieces ';' raw.toList = before ++ piece :: after ∧
        (∀ p ∈ before, '=' ∈ p) ∧ '=' ∉ piece ∧
          e = .malformedCookie (String.ofList (trim piece))) ∧
    ((∀ p ∈ pieces ';' raw.toList, '=' ∈ p) →
      let entries := (pieces ';' raw.toList).map nameAndValue
      ∃ out?, parse raw = .ok entries ∧ mask? names raw = .ok out? ∧
        (out? = none ↔ ∀ e ∈ entries, names.selects e.1 = true → e.2 = "") ∧
        (∀ out ∈ out?, parse out = .ok (entries.map fun e =>
          if names.selects e.1 = true ∧ e.2 ≠ "" then (e.1, maskText) else e)) ∧
        (Redactor.cookies names).redact (.string raw) = .value (.string (out?.getD raw))) := by
  refine ⟨fun e => mask?_eq_error_iff.trans parse_eq_error_iff, fun hmem => ?_⟩
  intro entries
  have hparse : parse raw = .ok entries := parse_of_forall_mem hmem
  refine ⟨_, hparse, mask?_of_parse hparse, ?_, ?_, ?_⟩
  · rw [← Selection.any_masks_eq_false]
    simp
  · intro out hout
    by_cases hany : entries.any names.masks = true
    · rw [if_pos hany] at hout
      rw [← Option.some.inj hout, parse_render_map_maskEntry hparse, Selection.maskEntry_eq]
    · rw [if_neg hany] at hout
      cases hout
  · have hne : raw ≠ "" := by
      rintro rfl
      exact List.not_mem_nil (hmem [] List.mem_cons_self)
    have hmask : mask names raw = .ok ((if entries.any names.masks then
        some (render (entries.map names.maskEntry)) else none).getD raw) := by
      rw [mask, mask?_of_parse hparse]
      rfl
    exact redact_string hne hmask

/-- Of two cookies of one name the first has a value, with an equals sign in it. The other one stays
even if every cookie is masked. There are blanks other than spaces. -/
theorem mask?_commutes_session :
    let raw := "\u3000session = a=b ;theme=\tdark\u00A0;session="
    (∃ out, mask? (.only ["session"]) raw = .ok (some out) ∧
      parse out = .ok [("session", "[Scrubbed]"), ("theme", "dark"), ("session", "")]) ∧
    (∃ out, mask? .all raw = .ok (some out) ∧
      parse out = .ok [("session", "[Scrubbed]"), ("theme", "[Scrubbed]"), ("session", "")]) ∧
    mask? (.only ["session"]) "session=a; one\u2003;two" = .error (.malformedCookie "one") := by
  intro raw
  have hmem : ∀ p ∈ pieces ';' raw.toList, '=' ∈ p := by decide +kernel
  have hentries : (pieces ';' raw.toList).map nameAndValue =
      [("session", "a=b"), ("theme", "dark"), ("session", "")] := by decide +kernel
  have hmasked : ∀ names : Selection, names.selects "session" = true → ∃ out,
      mask? names raw = .ok (some out) ∧ parse out = .ok
        ([("session", "a=b"), ("theme", "dark"), ("session", "")].map fun e =>
          if names.selects e.1 = true ∧ e.2 ≠ "" then (e.1, maskText) else e) := by
    intro names hs
    obtain ⟨out?, -, hmask, hnone, hread, -⟩ := (mask?_commutes names raw).2 hmem
    rw [hentries] at hnone hread
    cases out? with
    | none => exact absurd (hnone.mp rfl ("session", "a=b") List.mem_cons_self hs) (by decide)
    | some out => exact ⟨out, hmask, hread out rfl⟩
  refine ⟨hmasked (.only ["session"]) rfl, hmasked .all rfl, ?_⟩
  exact ((mask?_commutes _ _).1 _).mpr ⟨["session=a".toList], " one\u2003".toList, ["two".toList],
    by decide +kernel, by decide, by decide, rfl⟩

end Cookies

end Redaction
