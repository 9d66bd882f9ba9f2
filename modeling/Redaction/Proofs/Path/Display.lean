import Redaction.Path.Basic
import Redaction.Proofs.Text.Cutting

/-!
# Paths as they are displayed

A path that was cut from a dotted text is displayed as that text (`KeyPath.display_parse`), and has
a segment unless the text is empty. A path that was made from segments is displayed as a text that is
cut into these segments again, unless there is a dot in one of them or the only one is empty
(`KeyPath.parse_display`).
-/

namespace Redaction.KeyPath

theorem parse_of_ne_empty {dotted : String} (h : dotted ≠ "") :
    parse dotted = ofTexts ((Text.pieces '.' dotted.toList).map String.ofList) :=
  if_neg fun he => h (String.isEmpty_iff.mp he)

theorem map_text_ofTexts (texts : List String) :
    (ofTexts texts).segments.map Segment.text = texts := by
  rw [ofTexts, List.map_map]
  exact List.map_id'' Segment.text_ofText texts

theorem ofTexts_inj {texts texts' : List String} (h : ofTexts texts = ofTexts texts') :
    texts = texts' := by
  rw [← map_text_ofTexts texts, h, map_text_ofTexts]

theorem map_toList_map_ofList (ps : List (List Char)) :
    (ps.map String.ofList).map String.toList = ps := by
  rw [List.map_map]
  exact List.map_id'' (fun _ => String.toList_ofList) ps

theorem map_ofList_map_toList (texts : List String) :
    (texts.map String.toList).map String.ofList = texts := by
  rw [List.map_map]
  exact List.map_id'' (fun _ => String.ofList_toList) texts

theorem display_ofTexts (texts : List String) :
    (ofTexts texts).display = String.ofList (['.'].intercalate (texts.map String.toList)) := by
  unfold display ofTexts
  rw [List.map_map]
  have htext : ∀ s ∈ texts, (String.toList ∘ Segment.text ∘ Segment.ofText) s = s.toList := by
    intro s _
    rw [Function.comp_apply, Function.comp_apply, Segment.text_ofText]
  exact congrArg (fun ts => String.ofList (['.'].intercalate ts)) (List.map_congr_left htext)

/-- **A path that was cut from a text is displayed as the text.** -/
theorem display_parse (dotted : String) : (parse dotted).display = dotted := by
  by_cases h : dotted = ""
  · rw [h]
    rfl
  · rw [parse_of_ne_empty h, display_ofTexts, map_toList_map_ofList, Text.intercalate_pieces,
      String.ofList_toList]

theorem segments_parse_ne_nil {dotted : String} (h : dotted ≠ "") :
    (parse dotted).segments ≠ [] := by
  rw [parse_of_ne_empty h]
  intro hnil
  exact Text.pieces_ne_nil '.' dotted.toList (List.map_eq_nil_iff.mp (List.map_eq_nil_iff.mp hnil))

/-- The text of segments without dots is cut into these segments. -/
theorem pieces_display_ofTexts {texts : List String} (hne : texts ≠ [])
    (h : ∀ t ∈ texts, '.' ∉ t.toList) :
    Text.pieces '.' (ofTexts texts).display.toList = texts.map String.toList := by
  rw [display_ofTexts, String.toList_ofList]
  refine Text.pieces_intercalate (fun hnil => hne (List.map_eq_nil_iff.mp hnil)) fun p hp => ?_
  obtain ⟨t, ht, rfl⟩ := List.mem_map.mp hp
  exact h t ht

/-- **Displaying and cutting are inverse where they can be.** A text is always got back. Segments are
not if there is a dot in one of them, which is cut at, or if the only one is empty, for the empty
text is the path without segments. -/
theorem parse_display :
    (∀ dotted : String, (parse dotted).display = dotted) ∧
    ∀ texts : List String, parse (ofTexts texts).display = ofTexts texts ↔
      (∀ t ∈ texts, '.' ∉ t.toList) ∧ texts ≠ [""] := by
  refine ⟨display_parse, fun texts => ⟨fun h => ?_, fun ⟨hdot, hsingle⟩ => ?_⟩⟩
  · by_cases hempty : (ofTexts texts).display = ""
    · have hnone : ofTexts [] = ofTexts texts := by
        rw [← h, hempty]
        rfl
      obtain rfl : [] = texts := ofTexts_inj hnone
      exact ⟨fun t ht => absurd ht List.not_mem_nil, (List.cons_ne_nil "" []).symm⟩
    · rw [parse_of_ne_empty hempty] at h
      constructor
      · intro t ht
        rw [← ofTexts_inj h] at ht
        obtain ⟨p, hp, rfl⟩ := List.mem_map.mp ht
        rw [String.toList_ofList]
        exact Text.not_mem_of_mem_pieces hp
      · rintro rfl
        exact hempty rfl
  · by_cases hnil : texts = []
    · rw [hnil]
      rfl
    · have hpieces := pieces_display_ofTexts hnil hdot
      have hne : (ofTexts texts).display ≠ "" := by
        intro hempty
        rw [hempty] at hpieces
        have htexts := congrArg (List.map String.ofList) hpieces
        rw [map_ofList_map_toList] at htexts
        exact hsingle htexts.symm
      rw [parse_of_ne_empty hne, hpieces, map_ofList_map_toList]

/-- Empty segments are got back if there are others. -/
theorem parse_display_wildcard :
    (parse "a.[].b").segments = [.key "a" (by decide), .eachElement, .key "b" (by decide)] ∧
    (parse "a.[].b").display = "a.[].b" ∧
    parse (ofTexts ["", "[]", ""]).display = ofTexts ["", "[]", ""] ∧
    parse (ofTexts ["a.b"]).display ≠ ofTexts ["a.b"] ∧
    parse (ofTexts [""]).display ≠ ofTexts [""] := by
  obtain ⟨hdotted, htexts⟩ := parse_display
  refine ⟨by decide +kernel, hdotted _, (htexts _).mpr (by decide), fun h => ?_, fun h => ?_⟩
  · exact absurd ((htexts _).mp h).1 (by decide)
  · exact ((htexts _).mp h).2 rfl

end Redaction.KeyPath
