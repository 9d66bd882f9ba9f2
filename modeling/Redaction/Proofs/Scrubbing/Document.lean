import Redaction.Proofs.Json.Printing
import Redaction.Proofs.Mask.Entries
import Redaction.Proofs.Rules.Compile
import Redaction.Proofs.Scrubbing.Accounting
import Redaction.Report

/-!
# Scrubbing a document

A built-in redactor makes no value deeper: where a value fits, so does what is put in its place
(`RuleSpec.fits_outcome`), for a masked pair has a name and a text in it and nothing else. So a
document at the limit of the reader is scrubbed to one that the reader accepts again, and in either
style its text denotes the scrubbed event (`Config.scrubText_document`).
-/

namespace Redaction

open Json

variable {room : Nat} {names : Selection}

/-! ### What redactors make of values that fit -/

theorem fits_maskValue (room : Nat) : Fits room maskValue := .string room maskText

namespace Entries

theorem fits_maskMembers {ms : Members} (h : ∀ m ∈ ms, Fits room m.2) :
    ∀ m ∈ maskMembers names ms, Fits room m.2 := by
  intro m hm
  obtain ⟨m', hm', rfl⟩ := List.mem_map.mp hm
  dsimp only
  split
  · exact fits_maskValue room
  · exact h m' hm'

/-- A masked pair is no deeper than its name. -/
theorem fits_of_elementMasked {item w : Json} (h : ElementMasked names item w)
    (hitem : Fits room item) : Fits room w := by
  have hpair : ∀ {name : Json} {rest : List Json}, Fits room (.array (name :: rest)) →
      Fits room (.array [name, maskValue]) := by
    intro name rest hfits
    obtain ⟨n, rfl, hitems⟩ := Fits.array_iff.mp hfits
    refine .array (List.forall_mem_cons.mpr ⟨hitems name List.mem_cons_self, ?_⟩)
    exact List.forall_mem_singleton.mpr (fits_maskValue n)
  cases h with
  | every name rest => exact hpair hitem
  | selected rest hname => exact hpair hitem
  | kept hkept => exact hitem

theorem fits_maskElements {i : Nat} {items ws : List Json}
    (h : maskElements names i items = .ok ws) (hitems : ∀ v ∈ items, Fits room v) :
    ∀ w ∈ ws, Fits room w := by
  intro w hw
  obtain ⟨item, hmem, hitem⟩ := exists_of_forall₂ (maskElements_eq_ok_iff.mp h) hw
  exact fits_of_elementMasked hitem (hitems item hmem)

theorem fits_mask {maskString : String → Except RedactError String} {v w : Json}
    (h : mask names maskString v = .ok w) (hv : Fits room v) : Fits room w := by
  rcases mask_eq_ok h with ⟨-, rfl⟩ | ⟨ms, rfl, rfl⟩ | ⟨items, ws, rfl, rfl, hws⟩ |
    ⟨s, s', rfl, rfl, -⟩
  · exact hv
  · obtain ⟨n, rfl, hnodup, hmembers⟩ := Fits.object_iff.mp hv
    exact .object (keys_maskMembers names ms ▸ hnodup) (fits_maskMembers hmembers)
  · obtain ⟨n, rfl, hitems⟩ := Fits.array_iff.mp hv
    exact .array (fits_maskElements hws hitems)
  · exact .string room s'

end Entries

theorem Redactor.fits_outcome_named {name : String} {redact : Json → Except RedactError Json}
    {v : Json} (h : ∀ w, redact v = .ok w → Fits room w) :
    Fits room ((Redactor.named name redact).outcome v) := by
  cases hv : redact v with
  | ok w =>
    rw [outcome_of_ok hv]
    exact h w hv
  | error e =>
    rw [outcome_of_error hv]
    exact .string room _

/-- **No action makes a value deeper.** -/
theorem RuleSpec.fits_outcome (r : RuleSpec) {v : Json} (hv : Fits room v) :
    Fits room (r.redactor.outcome v) := by
  unfold redactor
  cases r.action with
  | scrub => exact fits_maskValue room
  | scrubCookies => exact Redactor.fits_outcome_named fun w h => Entries.fits_mask h hv
  | scrubQueryString => exact Redactor.fits_outcome_named fun w h => Entries.fits_mask h hv

/-- One rule of a configuration. -/
theorem RuleSpec.fits_effect (r : RuleSpec) {limit : Option Nat} {event : Json}
    (h : Fits room event) : Fits room (r.rule.effect limit event) := by
  refine h.replaceAll (Rule.pairwise_edits limit r.rule event) fun e he => ?_
  obtain ⟨-, v, hv, hw⟩ := Rule.mem_edits he
  refine ⟨v, hv, fun n hn => ?_⟩
  rw [hw]
  exact r.fits_outcome hn

/-- All rules of a configuration. -/
theorem Config.fits_scrub {c : Config} {s : Scrubber} (hs : c.compile = .ok s) {event : Json}
    (h : Fits room event) (t : Telemetry) : Fits room (s.scrub event t).1 := by
  obtain rfl := compile_eq_ok hs
  rw [Scrubber.scrub_fst]
  refine Scrubber.foldl_effect_keeps (fun rule hrule e he => ?_) h
  obtain ⟨r, -, rfl⟩ := List.mem_map.mp hrule
  exact r.fits_effect he

/-! ### Scrubbing a text -/

namespace Config

variable {c : Config} {s : Scrubber} {input : String} {event : Json}

/-- The report on a text that denotes an event. -/
def report (s : Scrubber) (style : Style) (event : Json) : Report where
  output := style.write (s.scrub event .empty).1
  rulesApplied := s.rules.length
  failures := (s.scrub event .empty).2.failures.since .zero
  records := (s.scrub event .empty).2.records

theorem scrubText_of_error {e : CompileError} (h : c.compile = .error e) (style : Style) :
    c.scrubText input style = .error (.compile e) := by
  rw [scrubText, h]
  rfl

theorem scrubText_of_not_json (hs : c.compile = .ok s) (h : parse? input = none) (style : Style) :
    c.scrubText input style = .error .notJson := by
  rw [scrubText, hs, h]
  rfl

theorem scrubText_of_parse (hs : c.compile = .ok s) (h : parse? input = some event)
    (style : Style) : c.scrubText input style = .ok (report s style event) := by
  rw [scrubText, hs, h]
  rfl

/-- The failures in the report are those that scrubbing the event counts, whatever has been counted
before. -/
theorem failures_report (s : Scrubber) (style : Style) (event : Json) (t : Telemetry) :
    (s.scrub event t).2.failures = t.failures + (report s style event).failures := by
  have hempty : (report s style event).failures =
      Record.failures (Scrubber.reports s.maxTargets s.rules event) := by
    have hgrows := (s.grows_scrub event .empty).failures_eq
    show Failures.since _ .zero = _
    rw [hgrows]
    exact Failures.since_add .zero _
  rw [hempty]
  exact (s.grows_scrub event t).failures_eq

/-- What is written of a scrubbed event is read back. -/
theorem parse?_report (hs : c.compile = .ok s) (h : Document input event)
    (hdoubles : event.ReadsDoubles) (style : Style) (t : Telemetry) :
    parse? (report s style event).output = some (s.scrub event t).1 ∧
      (s.scrub event t).1.depth ≤ 127 := by
  have hfits : Fits Reading.maxDepth (s.scrub event t).1 :=
    fits_scrub hs (fits_of_document h hdoubles) t
  refine ⟨?_, hfits.depth_le⟩
  have houtput : (report s style event).output = style.write (s.scrub event t).1 := by
    show style.write (s.scrub event .empty).1 = _
    rw [Scrubber.scrub_fst, Scrubber.scrub_fst]
  rw [houtput]
  cases style with
  | compact => exact parse?_compact hfits
  | pretty => exact parse?_pretty hfits

/-- **To scrub a text is to read it, to scrub the event, and to write it so that it is read again.**
The first rule that does not compile is the error, whatever the text is. If every rule compiles,
then a text is refused if and only if it is no document. The event that a document denotes is
scrubbed, and the failures are those of this run. If its doubles are read back, then what is written
in either style is a document, which denotes the scrubbed event and is at most 127 deep. -/
theorem scrubText_document (c : Config) :
    (∀ input style e, c.scrubText input style = .error (.compile e) ↔
      ∃ before r after, c.rules = before ++ r :: after ∧
        (∀ b ∈ before, ∃ rule, b.compile = .ok rule) ∧ r.compile = .error e) ∧
    ReportError.message .notJson = "Input is not valid JSON" ∧
    (c.Compiles → ∃ s, c.compile = .ok s ∧ ∀ input style,
      (c.scrubText input style = .error .notJson ↔ ¬ ∃ event, Document input event) ∧
      ∀ event, Document input event → ∃ report, c.scrubText input style = .ok report ∧
        report.rulesApplied = c.rules.length ∧
        ∀ t, (s.scrub event t).2.failures = t.failures + report.failures ∧
          (event.ReadsDoubles → parse? report.output = some (s.scrub event t).1 ∧
            (s.scrub event t).1.depth ≤ 127)) := by
  refine ⟨fun input style e => ?_, rfl, fun hall => ?_⟩
  · rw [← compile_eq_error_iff]
    constructor
    · intro h
      cases hc : c.compile with
      | error e' =>
        rw [scrubText_of_error hc] at h
        cases h
        rfl
      | ok s =>
        cases hp : parse? input with
        | none =>
          rw [scrubText_of_not_json hc hp] at h
          cases h
        | some event =>
          rw [scrubText_of_parse hc hp] at h
          cases h
    · exact fun h => scrubText_of_error h style
  · have hs := compile_of_compiles hall
    refine ⟨_, hs, fun input style => ⟨?_, fun event hevent => ?_⟩⟩
    · constructor
      · rintro h ⟨event, hevent⟩
        rw [scrubText_of_parse hs (parse?_eq_some_iff.mpr hevent)] at h
        cases h
      · intro h
        exact scrubText_of_not_json hs (parse?_eq_none_iff.mpr h) style
    · refine ⟨_, scrubText_of_parse hs (parse?_eq_some_iff.mpr hevent) style, ?_, fun t => ?_⟩
      · show (c.rules.map RuleSpec.rule).length = _
        rw [List.length_map]
      · refine ⟨failures_report _ style event t, fun hdoubles => ?_⟩
        exact parse?_report hs hevent hdoubles style t

/-- A name alone in its array gets a mask beside it, no deeper than itself, and a header that cannot
be masked is a failure. A text that breaks off is refused. -/
theorem scrubText_document_name :
    let c : Config := ⟨[⟨none, none, "q", .scrubQueryString, [], true⟩,
      ⟨none, none, "c", .scrubCookies, [], true⟩], none⟩
    let number : Json := .number (.double ⟨false, ⟨6755399441055744, -52⟩⟩)
    let input := "\x7b\"q\":[[\"token\"]],\"n\":1.5,\"c\":\"alpha\"\x7d"
    (∃ event report, Document input event ∧ event.ReadsDoubles ∧
      c.scrubText input .pretty = .ok report ∧ report.rulesApplied = 2 ∧
      report.failures = ⟨1, 0⟩ ∧ parse? report.output = some (.object
        [("q", .array [.array [.string "token", .string "[Scrubbed]"]]), ("n", number),
          ("c", .string "ERROR WHEN SCRUBBING")])) ∧
    c.scrubText "\x7b\"q\":1" .compact = .error .notJson := by
  intro c number input
  let event : Json :=
    .object [("q", .array [.array [.string "token"]]), ("n", number), ("c", .string "alpha")]
  have hfits : Fits Reading.maxDepth event := by
    have hnumber : Fits 126 number := .number 126 (by decide +kernel)
    have hnames : Fits 126 (.array [.array [.string "token"]]) :=
      .array (List.forall_mem_singleton.mpr
        (.array (List.forall_mem_singleton.mpr (.string 124 "token"))))
    exact .object (by decide) (List.forall_mem_cons.mpr ⟨hnames, List.forall_mem_cons.mpr
      ⟨hnumber, List.forall_mem_singleton.mpr (.string 126 "alpha")⟩⟩)
  have hdocument : Document input event := document_of_compact hfits (by decide +kernel)
  have hall : c.Compiles :=
    List.forall_mem_cons.mpr ⟨⟨_, rfl⟩, List.forall_mem_singleton.mpr ⟨_, rfl⟩⟩
  obtain ⟨s, hs, hrun⟩ := (scrubText_document c).2.2 hall
  obtain rfl := compile_eq_ok hs
  refine ⟨?_, ?_⟩
  · obtain ⟨report, hreport, happlied, hread⟩ := (hrun input .pretty).2 event hdocument
    obtain ⟨hfailures, hsame⟩ := hread .empty
    have hcounted : report.failures = ⟨1, 0⟩ := by
      rw [← Failures.since_add Telemetry.empty.failures report.failures, ← hfailures]
      rfl
    refine ⟨event, report, hdocument, hfits.readsDoubles, hreport, happlied, hcounted, ?_⟩
    rw [(hsame hfits.readsDoubles).1]
    rfl
  · exact (hrun _ .compact).1.mpr (parse?_eq_none_iff.mp (by decide +kernel))

end Config

end Redaction
