import Redaction.Proofs.Path.Related
import Redaction.Proofs.Scrubbing.OneRule

/-!
# No target of a masking rule escapes

`Masked path event` says that whatever the path points at in the event is masked. A rule that masks
without a limit establishes it for its own path. A later rule keeps it if it masks too, wherever it
does so: under a mask there is nothing left to point at. It also keeps it if its path is not
related, whatever it does. So it holds of the event that leaves the scrubber.
-/

namespace Redaction

open Json Position

/-- Whatever the path points at in the event is masked. -/
def Masked (path : KeyPath) (event : Json) : Prop :=
  ∀ p v, path.pointsAt p = true → event.at? p = some v → v = maskValue

theorem at?_maskValue {p : Position} {v : Json} (h : maskValue.at? p = some v) : v = maskValue := by
  cases p with
  | nil => exact (Option.some.inj h).symm
  | cons t p => cases h

theorem replaceAt_maskValue (p : Position) : maskValue.replaceAt p maskValue = maskValue := by
  cases p <;> rfl

namespace Masked

variable {path : KeyPath} {event : Json}

/-- One more mask, wherever it is put. -/
theorem replaceAt (h : Masked path event) (q : Position) :
    Masked path (event.replaceAt q maskValue) := by
  intro p v hp hv
  rcases apart_or_prefix q p with ha | ⟨r, rfl⟩ | ⟨r, rfl⟩
  · rw [at?_replaceAt_of_apart ha] at hv
    exact h p v hp hv
  · rw [at?_replaceAt_append, Option.bind_eq_some_iff] at hv
    obtain ⟨_, -, hv⟩ := hv
    exact at?_maskValue hv
  · rw [at?_replaceAt_of_append, Option.map_eq_some_iff] at hv
    obtain ⟨w, hw, rfl⟩ := hv
    rw [h p w hp hw]
    exact replaceAt_maskValue r

theorem replaceAll (h : Masked path event) {edits : List (Position × Json)}
    (he : ∀ e ∈ edits, e.2 = maskValue) : Masked path (event.replaceAll edits) := by
  induction edits generalizing event with
  | nil => exact h
  | cons e edits ih =>
    rw [replaceAll_cons, he e List.mem_cons_self]
    exact ih (h.replaceAt e.1) fun e' he' => he e' (List.mem_cons_of_mem e he')

/-- Any changes that are apart from what the path points at. -/
theorem replaceAll_of_apart (h : Masked path event) {edits : List (Position × Json)}
    (he : ∀ e ∈ edits, ∀ p, path.pointsAt p = true → Apart e.1 p) :
    Masked path (event.replaceAll edits) := by
  intro p v hp hv
  rw [at?_replaceAll_of_apart fun e hmem => he e hmem p hp] at hv
  exact h p v hp hv

end Masked

namespace Rule

variable {rule : Rule}

theorem reach_scrub (h : rule.redactor = .scrub) (event : Json) :
    rule.reach none event = (rule.values event).length := by
  have hfind : ((rule.values event).zipIdx 0).findIdx (fun e => rule.givesUpAt none e.1 e.2) =
      ((rule.values event).zipIdx 0).length := by
    rw [List.findIdx_eq_length]
    intro e _
    rw [givesUpAt, h]
    rfl
  rw [List.length_zipIdx] at hfind
  exact hfind

theorem edits_scrub (h : rule.redactor = .scrub) (event : Json) :
    rule.edits none event = (event.slots rule.path).map fun s => (s.1, maskValue) := by
  rw [edits, reach_scrub h, values, List.length_map, List.take_length, h]
  rfl

/-- **A masking rule masks all that its path points at.** -/
theorem masked_effect_scrub (h : rule.redactor = .scrub) (event : Json) :
    Masked rule.path (rule.effect none event) := by
  intro p v hp hv
  rw [effect] at hv
  have happly := edits_scrub h event
  cases hw : event.at? p with
  | some w =>
    have hmem : (p, maskValue) ∈ rule.edits none event := by
      rw [happly]
      exact List.mem_map_of_mem (f := fun s => (s.1, maskValue)) (mem_slots.mpr ⟨hp, hw⟩)
    rw [at?_replaceAll_of_mem (pairwise_edits none rule event) hmem (by rw [hw]; rfl)] at hv
    exact (Option.some.inj hv).symm
  | none =>
    have hapart : ∀ e ∈ rule.edits none event, Apart e.1 p := by
      intro e he
      obtain ⟨hpe, w, hwe, -⟩ := mem_edits he
      refine apart_of_length_eq ?_ ?_
      · exact KeyPath.length_eq_of_pointsAt hpe hp
      · rintro rfl
        rw [hw] at hwe
        cases hwe
    rw [at?_replaceAll_of_apart hapart, hw] at hv
    cases hv

/-- A rule that masks, or whose path is not related, unmasks nothing. -/
theorem masked_effect {path : KeyPath} {event : Json} {limit : Option Nat} (hm : Masked path event)
    (h : rule.redactor = .scrub ∨ ¬ KeyPath.Related path rule.path) :
    Masked path (rule.effect limit event) := by
  rcases h with h | h
  · refine hm.replaceAll fun e he => ?_
    obtain ⟨-, v, -, hv⟩ := mem_edits he
    rw [hv, h]
    rfl
  · refine hm.replaceAll_of_apart fun e he p hp => ?_
    exact (KeyPath.apart_of_not_related h hp (mem_edits he).1).symm

end Rule

namespace Scrubber

theorem masked_foldl_effect {path : KeyPath} {limit : Option Nat} {rules : List Rule} {event : Json}
    (h : ∀ r ∈ rules, r.redactor = .scrub ∨ ¬ KeyPath.Related path r.path)
    (hm : Masked path event) : Masked path (rules.foldl (Rule.effect limit) event) :=
  foldl_effect_keeps (fun r hr _ hm => Rule.masked_effect hm (h r hr)) hm

/-- **What a masking rule does without a limit.** It masks its slots and reports how many they are. -/
theorem applyRule_of_scrub {rule : Rule} (h : rule.redactor = .scrub) (event : Json)
    (t : Telemetry) :
    applyRule none rule event t =
      (event.replaceAll ((event.slots rule.path).map fun s => (s.1, maskValue)),
        t.touched rule.path (event.slots rule.path).length) := by
  have hnote : ∀ (values : List Json) (t : Telemetry), values.foldl rule.note t = t := by
    intro values t
    induction values with
    | nil => rfl
    | cons v values ih =>
      have hv : rule.note t v = t := by
        rw [Rule.note, h]
        rfl
      rw [List.foldl_cons, hv, ih]
  refine Prod.ext ?_ ?_
  · rw [applyRule_fst, Rule.effect, Rule.edits_scrub h]
  · rcases applyRule_snd none rule event t with ⟨-, ht⟩ | ⟨hlt, -⟩
    · rw [ht, hnote, Rule.values, List.length_map]
    · rw [Rule.reach_scrub h] at hlt
      exact absurd hlt (Nat.lt_irrefl _)

/-- Rules that all mask leave nothing unmasked that one of them points at. -/
theorem masked_foldl_effect_of_mem {rules : List Rule} (h : ∀ r ∈ rules, r.redactor = .scrub)
    (event : Json) : ∀ r ∈ rules, Masked r.path (rules.foldl (Rule.effect none) event) := by
  refine foldl_effect_establishes (P := fun r e => Masked r.path e) ?_ ?_ event
  · exact fun r hr e => Rule.masked_effect_scrub (h r hr) e
  · exact List.pairwise_of_forall_mem_list fun r _ r' hr' e hm =>
      Rule.masked_effect hm (Or.inl (h r' hr'))

/-- **No target of a masking rule escapes.** In the event that leaves a scrubber without a limit,
every target of a rule that masks holds the mask, if each later rule masks too or has a path that
is not related. -/
theorem get?_targets_scrub (s : Scrubber) (before after : List Rule) (r : Rule)
    (hrules : s.rules = before ++ r :: after) (hlimit : s.maxTargets = none)
    (hr : r.redactor = .scrub)
    (hafter : ∀ r' ∈ after, r'.redactor = .scrub ∨ ¬ KeyPath.Related r.path r'.path)
    (event : Json) (t : Telemetry) :
    ∀ ms ∈ (Targets.of (s.scrub event t).1 r.path).toList,
      ∃ key, r.path.finalKey? = some key ∧ Members.get? key ms = some maskValue := by
  have hm : Masked r.path (s.scrub event t).1 := by
    rw [scrub_fst, hrules, hlimit, List.foldl_append, List.foldl_cons]
    exact masked_foldl_effect hafter (Rule.masked_effect_scrub hr _)
  intro ms hms
  rw [Targets.toList_of, List.mem_map] at hms
  obtain ⟨p, hp, rfl⟩ := hms
  cases hk : r.path.finalKey? with
  | none =>
    rw [places, hk] at hp
    cases hp
  | some key =>
    obtain ⟨hf, ha, hc⟩ := (mem_places hk).mp hp
    obtain ⟨v, hv⟩ := Option.isSome_iff_exists.mp hc
    have hpoint : r.path.pointsAt (p.position ++ [.member key]) = true :=
      KeyPath.pointsAt_iff.mpr ⟨key, p.position, hk, rfl, hf⟩
    have hat : (s.scrub event t).1.at? (p.position ++ [.member key]) = some v :=
      (at?_append_member ha).trans hv
    refine ⟨key, rfl, ?_⟩
    rw [hv, hm _ v hpoint hat]

/-- The first rule plants objects under `a`, the second masks a member of each, the third fails on
another member of them. -/
def planting : Scrubber where
  rules := [
    ⟨none, .ofTexts ["a"], .named "plant" fun _ => .ok (.array
      [.object [("b", .string "secret"), ("c", .null)], .object [("b", .null)]])⟩,
    ⟨none, .ofTexts ["a", "[]", "b"], .scrub⟩,
    ⟨none, .ofTexts ["a", "[]", "c"], .named "refuse" fun _ => .error (.custom "no")⟩]
  maxTargets := none

theorem get?_targets_scrub_planting :
    let r : Rule := ⟨none, .ofTexts ["a", "[]", "b"], .scrub⟩
    let event : Json := .object [("a", .null)]
    (planting.rules = [planting.rules[0]] ++ r :: [planting.rules[2]] ∧ planting.maxTargets = none ∧
      r.redactor = .scrub ∧ ¬ KeyPath.Related r.path planting.rules[2].path) ∧
    (Targets.of (planting.scrub event .empty).1 r.path).toList =
      [[("b", .string "[Scrubbed]"), ("c", .string "ERROR WHEN SCRUBBING")],
        [("b", .string "[Scrubbed]")]] ∧
    ∀ ms ∈ (Targets.of (planting.scrub event .empty).1 r.path).toList,
      ∃ key, r.path.finalKey? = some key ∧ Members.get? key ms = some maskValue := by
  intro r event
  have hnot : ¬ KeyPath.Related r.path planting.rules[2].path := by decide
  refine ⟨⟨rfl, rfl, rfl, hnot⟩, ?_, ?_⟩
  · rw [Targets.toList_of]
    rfl
  · refine get?_targets_scrub planting [planting.rules[0]] [planting.rules[2]] r rfl rfl rfl ?_
      event .empty
    intro r' hr'
    rw [List.mem_singleton.mp hr']
    exact Or.inr hnot

end Scrubber

end Redaction
