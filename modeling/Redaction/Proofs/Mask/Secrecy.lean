import Redaction.Proofs.Mask.Commuting
import Redaction.Proofs.Mask.Shapes

/-!
# Selected values leave no trace

Two values that differ in what their selected entries hold, and in nothing else, are masked to the
same value or fail with the same error (`Redactor.redact_eq_of_agree`). The entries are the members of
an object, the pairs of an array, or what a string is read as. A masked string is written from its
masked entries alone, so the blanks, escapes and separators of the original do not show in it.
-/

namespace Redaction

namespace Selection

/-- The entries have the same name, and the same value unless the name is selected. -/
def Agree {α : Type} (names : Selection) (e e' : String × α) : Prop :=
  e.1 = e'.1 ∧ (names.selects e.1 = false → e.2 = e'.2)

/-- The entries agree one by one, some are selected, and no selected value is empty. -/
structure Hides (names : Selection) (entries entries' : List (String × String)) : Prop where
  agree : List.Forall₂ names.Agree entries entries'
  selected : ∃ e ∈ entries, names.selects e.1 = true
  value_ne : ∀ e ∈ entries, names.selects e.1 = true → e.2 ≠ ""
  value_ne' : ∀ e ∈ entries', names.selects e.1 = true → e.2 ≠ ""

variable {names : Selection} {e e' : String × String} {entries entries' : List (String × String)}

theorem maskEntry_eq_of_agree (h : names.Agree e e')
    (he : names.selects e.1 = true → e.2 ≠ "") (he' : names.selects e'.1 = true → e'.2 ≠ "") :
    names.maskEntry e = names.maskEntry e' := by
  obtain ⟨hname, hvalue⟩ := h
  by_cases hs : names.selects e.1 = true
  · have hs' : names.selects e'.1 = true := hname ▸ hs
    rw [maskEntry, if_pos (masks_iff.mpr ⟨hs, he hs⟩), maskEntry,
      if_pos (masks_iff.mpr ⟨hs', he' hs'⟩), hname]
  · rw [Prod.ext hname (hvalue (Bool.eq_false_iff.mpr hs))]

theorem Hides.map_maskEntry_eq (h : names.Hides entries entries') :
    entries.map names.maskEntry = entries'.map names.maskEntry := by
  obtain ⟨hagree, -, hne, hne'⟩ := h
  induction hagree with
  | nil => rfl
  | cons hhead _ ih =>
    obtain ⟨hne, hrest⟩ := List.forall_mem_cons.mp hne
    obtain ⟨hne', hrest'⟩ := List.forall_mem_cons.mp hne'
    rw [List.map_cons, List.map_cons, maskEntry_eq_of_agree hhead hne hne', ih hrest hrest']

theorem Hides.any_masks (h : names.Hides entries entries') :
    entries.any names.masks = true ∧ entries'.any names.masks = true := by
  obtain ⟨e, he, hs⟩ := h.selected
  have hany : entries.any names.masks = true :=
    List.any_eq_true.mpr ⟨e, he, masks_iff.mpr ⟨hs, h.value_ne e he hs⟩⟩
  refine ⟨hany, ?_⟩
  rw [← any_map_maskEntry, ← h.map_maskEntry_eq, any_map_maskEntry, hany]

end Selection

namespace Entries

variable {names : Selection} {item item' : Json} {items items' : List Json}

/-- Elements that agree are the same, or pairs with the same selected name. -/
inductive ElementsAgree (names : Selection) : Json → Json → Prop
  | same (item : Json) : ElementsAgree names item item
  | selected {name : Json} (rest rest' : List Json)
      (h : names = .all ∨ ∃ s, name = .string s ∧ names.selects s = true) :
      ElementsAgree names (.array (name :: rest)) (.array (name :: rest'))

theorem maskMembers_eq_of_agree {ms ms' : Members} (h : List.Forall₂ names.Agree ms ms') :
    maskMembers names ms = maskMembers names ms' := by
  induction h with
  | nil => rfl
  | @cons m m' ms ms' hhead _ ih =>
    obtain ⟨hname, hvalue⟩ := hhead
    have hmember : (if names.selects m.1 then maskValue else m.2) =
        if names.selects m'.1 then maskValue else m'.2 := by
      rw [← hname]
      split
      · rfl
      · next hs => exact hvalue (Bool.eq_false_iff.mpr hs)
    exact congrArg₂ List.cons (Prod.ext hname hmember) ih

theorem maskElement_eq_of_agree (h : ElementsAgree names item item') (i : Nat) :
    maskElement names i item = maskElement names i item' := by
  cases h with
  | same => rfl
  | selected rest rest' hname =>
    cases names with
    | all => rfl
    | only keys =>
      obtain ⟨s, rfl, hs⟩ := hname.resolve_left Selection.noConfusion
      have hselects : selectsValue (.only keys) (.string s) = true := hs
      rw [maskElement, maskElement, if_pos hselects, if_pos hselects]

theorem maskElements_eq_of_agree (h : List.Forall₂ (ElementsAgree names) items items') (i : Nat) :
    maskElements names i items = maskElements names i items' := by
  induction h generalizing i with
  | nil => rfl
  | cons hhead _ ih => rw [maskElements, maskElements, maskElement_eq_of_agree hhead, ih]

end Entries

theorem Cookies.mask_eq_of_hides {names : Selection} {raw raw' : String}
    {entries entries' : List (String × String)} (hparse : parse raw = .ok entries)
    (hparse' : parse raw' = .ok entries') (h : names.Hides entries entries') :
    ∃ out, mask names raw = .ok out ∧ mask names raw' = .ok out := by
  obtain ⟨hany, hany'⟩ := h.any_masks
  refine ⟨render (entries.map names.maskEntry), ?_, ?_⟩
  · rw [mask_of_parse hparse, if_pos hany]
  · rw [mask_of_parse hparse', if_pos hany', h.map_maskEntry_eq]

theorem Query.mask_eq_of_hides {names : Selection} {raw raw' : String}
    (h : names.Hides (parse raw) (parse raw')) : mask names raw = mask names raw' := by
  obtain ⟨hany, hany'⟩ := h.any_masks
  rw [mask_eq, if_pos hany, mask_eq, if_pos hany', h.map_maskEntry_eq]

namespace Redactor

theorem redact_named_congr {name : String} {redact : Json → Except RedactError Json} {v w : Json}
    (h : redact v = redact w) : (named name redact).redact v = (named name redact).redact w := by
  simp only [named, h]

open Entries in
/-- **What selected entries hold leaves no trace.** Objects with the same keys are masked to the same
object if they differ under selected keys only. Arrays with the same names are masked to the same
array, or not for the same reason, if only what belongs to selected names differs. Strings that are
read as the same names are masked to the same string, however they are written, if some name is
selected, no selected value is empty, and the other values are the same; a header is read if each of
its pieces has an equals sign. -/
theorem redact_eq_of_agree (names : Selection) :
    (∀ ms ms' : Members, List.Forall₂ names.Agree ms ms' →
      (cookies names).redact (.object ms) = (cookies names).redact (.object ms') ∧
      (queryString names).redact (.object ms) = (queryString names).redact (.object ms')) ∧
    (∀ items items' : List Json, List.Forall₂ (ElementsAgree names) items items' →
      (cookies names).redact (.array items) = (cookies names).redact (.array items') ∧
      (queryString names).redact (.array items) = (queryString names).redact (.array items')) ∧
    (∀ raw raw' entries entries', Cookies.parse raw = .ok entries →
      Cookies.parse raw' = .ok entries' → names.Hides entries entries' →
      ∃ out, (cookies names).redact (.string raw) = .value (.string out) ∧
        (cookies names).redact (.string raw') = .value (.string out)) ∧
    (∀ raw raw', names.Hides (Query.parse raw) (Query.parse raw') →
      ∃ out, (queryString names).redact (.string raw) = .value (.string out) ∧
        (queryString names).redact (.string raw') = .value (.string out)) := by
  refine ⟨fun ms ms' h => ?_, fun items items' h => ?_, ?_, fun raw raw' h => ?_⟩
  · have hmask : ∀ f, mask names f (.object ms) = mask names f (.object ms') := by
      intro f
      rw [mask_object, mask_object, maskMembers_eq_of_agree h]
    exact ⟨redact_named_congr (hmask _), redact_named_congr (hmask _)⟩
  · have hmask : ∀ f, mask names f (.array items) = mask names f (.array items') := by
      intro f
      rw [mask_array, mask_array, maskElements_eq_of_agree h]
    exact ⟨redact_named_congr (hmask _), redact_named_congr (hmask _)⟩
  · intro raw raw' entries entries' hparse hparse' h
    -- the empty header is not read
    have hne : ∀ {s : String} {es : List (String × String)}, Cookies.parse s = .ok es → s ≠ "" := by
      rintro s es hs rfl
      cases hs
    obtain ⟨out, hout, hout'⟩ := Cookies.mask_eq_of_hides hparse hparse' h
    exact ⟨out, redact_string (hne hparse) hout, redact_string (hne hparse') hout'⟩
  · obtain ⟨hany, hany'⟩ := h.any_masks
    -- the empty query string has no entries
    have hne : ∀ {s : String}, (Query.parse s).any names.masks = true → s ≠ "" := by
      rintro s hs rfl
      cases hs
    refine ⟨Query.mask names raw, redact_string (hne hany) rfl, ?_⟩
    exact redact_string (hne hany') (congrArg Except.ok (Query.mask_eq_of_hides h).symm)

/-- Two sessions in headers that are spaced differently, in query strings with other escapes and
separators of which everything is masked, and in objects. -/
theorem redact_eq_of_agree_session :
    let header := Json.string "sid=[Scrubbed]; theme=dark"
    let query := Json.string "sid=%5BScrubbed%5D&q=%5BScrubbed%5D"
    let all := Json.object [("sid", .string "[Scrubbed]"), ("theme", .string "[Scrubbed]")]
    let some := Json.object [("sid", .string "[Scrubbed]"), ("q", .null)]
    ((cookies (.only ["sid"])).redact (.string "sid=1;theme=dark") = .value header ∧
      (cookies (.only ["sid"])).redact (.string " sid = a=b ; theme=dark ") = .value header) ∧
    ((queryString .all).redact (.string "sid=1&q=a+b") = .value query ∧
      (queryString .all).redact (.string "s%69d=%FF&&q=c") = .value query) ∧
    ((cookies .all).redact (.object [("sid", .string "1"), ("theme", .null)]) = .value all ∧
      (cookies .all).redact (.object [("sid", .null), ("theme", .bool true)]) = .value all) ∧
    (queryString (.only ["sid"])).redact (.object [("sid", .string "1"), ("q", .null)]) =
      .value some ∧
    (queryString (.only ["sid"])).redact (.object [("sid", .array []), ("q", .null)]) =
      .value some := by
  intro header query all some
  obtain ⟨hmembers, -, hcookies, -⟩ := redact_eq_of_agree (.only ["sid"])
  obtain ⟨hallMembers, -, -, hquery⟩ := redact_eq_of_agree .all
  refine ⟨?_, ?_, ?_, ?_⟩
  · have hentries : (Selection.only ["sid"]).Hides [("sid", "1"), ("theme", "dark")]
        [("sid", "a=b"), ("theme", "dark")] := by
      refine ⟨?_, ?_, ?_, ?_⟩
      · exact .cons ⟨rfl, by decide⟩ (.cons ⟨rfl, fun _ => rfl⟩ .nil)
      · exact ⟨("sid", "1"), List.mem_cons_self, by decide⟩
      · decide
      · decide
    have hheader : (cookies (.only ["sid"])).redact (.string "sid=1;theme=dark") =
        .value header := redact_string (by decide) (by decide +kernel)
    obtain ⟨out, hout, hout'⟩ := hcookies "sid=1;theme=dark" " sid = a=b ; theme=dark " _ _
      (by decide +kernel) (by decide +kernel) hentries
    exact ⟨hheader, hout'.trans (hout.symm.trans hheader)⟩
  · have hentries : Selection.all.Hides (Query.parse "sid=1&q=a+b")
        (Query.parse "s%69d=%FF&&q=c") := by
      rw [show Query.parse "sid=1&q=a+b" = [("sid", "1"), ("q", "a b")] by decide +kernel,
        show Query.parse "s%69d=%FF&&q=c" = [("sid", "�"), ("q", "c")] by decide +kernel]
      refine ⟨?_, ?_, ?_, ?_⟩
      · exact .cons ⟨rfl, by decide⟩ (.cons ⟨rfl, by decide⟩ .nil)
      · exact ⟨("sid", "1"), List.mem_cons_self, rfl⟩
      · decide
      · decide
    have hmasked : (queryString .all).redact (.string "sid=1&q=a+b") = .value query :=
      redact_string (by decide) (by decide +kernel)
    obtain ⟨out, hout, hout'⟩ := hquery _ _ hentries
    exact ⟨hmasked, hout'.trans (hout.symm.trans hmasked)⟩
  · have hsame := (hallMembers [("sid", .string "1"), ("theme", .null)]
      [("sid", .null), ("theme", .bool true)]
      (.cons ⟨rfl, fun h => by cases h⟩ (.cons ⟨rfl, fun h => by cases h⟩ .nil))).1
    have hmasked : (cookies .all).redact (.object [("sid", .string "1"), ("theme", .null)]) =
        .value all := rfl
    exact ⟨hmasked, hsame.symm.trans hmasked⟩
  · have hsame := (hmembers [("sid", .string "1"), ("q", .null)] [("sid", .array []), ("q", .null)]
      (.cons ⟨rfl, fun h => absurd h (by decide)⟩ (.cons ⟨rfl, fun _ => rfl⟩ .nil))).2
    have hmasked : (queryString (.only ["sid"])).redact
        (.object [("sid", .string "1"), ("q", .null)]) = .value some := rfl
    exact ⟨hmasked, hsame.symm.trans hmasked⟩

end Redactor

end Redaction
