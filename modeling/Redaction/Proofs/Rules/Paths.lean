import Redaction.Proofs.Path.Samples
import Redaction.Proofs.Rules.Compile
import Redaction.Proofs.Scrubbing.Coverage

/-!
# The paths that rules may have

A rule is refused its path for what stands at the dots of the text: the text is empty, or it has a
dot at an end or beside another dot, or it ends with the wildcard; of several reasons the first
counts (`KeyPath.parseRule_eq_error_iff`). Every other path is accepted, and is good for something:
there is an event in which a rule with this path masks one value (`KeyPath.parseRule_grammar`).
Refused paths other than the empty one lead somewhere too, but only in events in which an object has
the empty key, or the key that is spelled like the wildcard (`KeyPath.targets_refused`).
-/

namespace Redaction.KeyPath

/-- The text begins or ends with a dot, or has two dots side by side. -/
def HasGap (dotted : String) : Prop :=
  ['.'] <+: dotted.toList ∨ ['.'] <:+ dotted.toList ∨ ['.', '.'] <:+: dotted.toList

/-- The text is the wildcard, or ends with a dot and the wildcard. -/
def EndsWithWildcard (dotted : String) : Prop :=
  dotted = "[]" ∨ ['.', '[', ']'] <:+ dotted.toList

instance (dotted : String) : Decidable (HasGap dotted) := inferInstanceAs (Decidable (_ ∨ _ ∨ _))

instance (dotted : String) : Decidable (EndsWithWildcard dotted) :=
  inferInstanceAs (Decidable (_ ∨ _))

/-- The path of a rule is refused, and the reason is put in these words. -/
def RefusedFor (dotted reason : String) : Prop :=
  ∃ problem : PathProblem, parseRule dotted = .error (.invalidPath dotted problem) ∧
    problem.text = reason

variable {dotted : String}

/-! ### Dots and segments -/

theorem map_text_parse (h : dotted ≠ "") :
    (parse dotted).segments.map Segment.text =
      (Text.pieces '.' dotted.toList).map String.ofList := by
  rw [parse_of_ne_empty h, map_text_ofTexts]

/-- A segment is empty where there is a gap between the dots. -/
theorem exists_empty_segment_iff (h : dotted ≠ "") :
    (∃ s ∈ (parse dotted).segments, s.text = "") ↔ HasGap dotted := by
  have hpieces : (∃ s ∈ (parse dotted).segments, s.text = "") ↔
      [] ∈ Text.pieces '.' dotted.toList := by
    rw [← List.mem_map, map_text_parse h, List.mem_map]
    constructor
    · rintro ⟨p, hp, he⟩
      rw [← String.ofList_eq_empty_iff.mp he]
      exact hp
    · exact fun hp => ⟨[], hp, rfl⟩
  have hne : dotted.toList ≠ [] := fun he => h (String.toList_eq_nil_iff.mp he)
  rw [hpieces, Text.nil_mem_pieces_iff, or_iff_right hne, HasGap]

theorem getLast?_segments_iff (h : dotted ≠ "") :
    (parse dotted).segments.getLast? = some .eachElement ↔ EndsWithWildcard dotted := by
  have hpieces : (parse dotted).segments.getLast? = some .eachElement ↔
      (Text.pieces '.' dotted.toList).getLast? = some ['[', ']'] := by
    have hmap := congrArg List.getLast? (map_text_parse h)
    rw [List.getLast?_map, List.getLast?_map] at hmap
    constructor
    · intro hlast
      rw [hlast] at hmap
      obtain ⟨p, hp, he⟩ := Option.map_eq_some_iff.mp hmap.symm
      rw [hp, ← String.toList_ofList (l := p), he]
      rfl
    · intro hlast
      rw [hlast] at hmap
      obtain ⟨s, hs, he⟩ := Option.map_eq_some_iff.mp hmap
      have htext : s.text = Segment.eachElement.text := he
      rw [hs, Segment.text_inj htext]
  have htext : dotted.toList = ['[', ']'] ↔ dotted = "[]" :=
    ⟨fun he => String.toList_inj.mp he, fun he => by rw [he]; rfl⟩
  rw [hpieces, Text.getLast?_pieces_eq_some_iff (by decide), htext, EndsWithWildcard]

/-! ### Refused paths -/

theorem parseRule_of_gap (hne : dotted ≠ "") (h : HasGap dotted) :
    parseRule dotted = .error (.invalidPath dotted .emptySegment) := by
  have hempty : ¬ dotted.isEmpty = true := fun he => hne (String.isEmpty_iff.mp he)
  obtain ⟨s, hs, htext⟩ := (exists_empty_segment_iff hne).mpr h
  rw [parseRule, if_neg hempty]
  exact if_pos (List.any_eq_true.mpr ⟨s, hs, String.isEmpty_iff.mpr htext⟩)

/-- Without a gap it counts what the last segment is. -/
theorem parseRule_of_not_gap (hne : dotted ≠ "") (h : ¬ HasGap dotted) :
    parseRule dotted = if (parse dotted).segments.getLast? = some .eachElement then
      .error (.invalidPath dotted .endsWithWildcard) else .ok (parse dotted) := by
  have hempty : ¬ dotted.isEmpty = true := fun he => hne (String.isEmpty_iff.mp he)
  have hany : ¬ (parse dotted).segments.any (·.text.isEmpty) = true := by
    intro hany
    obtain ⟨s, hs, htext⟩ := List.any_eq_true.mp hany
    exact h ((exists_empty_segment_iff hne).mp ⟨s, hs, String.isEmpty_iff.mp htext⟩)
  rw [parseRule, if_neg hempty]
  exact if_neg hany

theorem parseRule_eq_ok_of_plain (hne : dotted ≠ "") (hgap : ¬ HasGap dotted)
    (hend : ¬ EndsWithWildcard dotted) : parseRule dotted = .ok (parse dotted) := by
  rw [parseRule_of_not_gap hne hgap, if_neg fun he => hend ((getLast?_segments_iff hne).mp he)]

/-- **Why a path is refused.** The reasons are looked for in this order. -/
theorem parseRule_eq_error_iff {e : CompileError} : parseRule dotted = .error e ↔
    (dotted = "" ∧ e = .invalidPath dotted .empty) ∨
    (dotted ≠ "" ∧ HasGap dotted ∧ e = .invalidPath dotted .emptySegment) ∨
    (dotted ≠ "" ∧ ¬ HasGap dotted ∧ EndsWithWildcard dotted ∧
      e = .invalidPath dotted .endsWithWildcard) := by
  by_cases hne : dotted = ""
  · have hempty : parseRule "" = .error (.invalidPath "" .empty) := rfl
    rw [hne, hempty]
    simp [eq_comm]
  · by_cases hgap : HasGap dotted
    · rw [parseRule_of_gap hne hgap]
      simp [hne, hgap, eq_comm]
    · by_cases hend : EndsWithWildcard dotted
      · rw [parseRule_of_not_gap hne hgap, if_pos ((getLast?_segments_iff hne).mpr hend)]
        simp [hne, hgap, hend, eq_comm]
      · rw [parseRule_eq_ok_of_plain hne hgap hend]
        simp [hne, hgap, hend]

theorem refusedFor_iff (problem : PathProblem) : RefusedFor dotted problem.text ↔
    parseRule dotted = .error (.invalidPath dotted problem) := by
  constructor
  · rintro ⟨problem', h, htext⟩
    have hproblem : problem' = problem := by
      revert htext
      cases problem' <;> cases problem <;> decide
    rw [← hproblem, h]
  · exact fun h => ⟨problem, h, rfl⟩

/-! ### Accepted paths -/

/-- A rule with an accepted path masks the value in the sample of the path, and nothing else. -/
theorem scrub_sample {r : RuleSpec} {path : KeyPath} {key : String}
    (hr : r.action = .scrub) (hpath : parseRule r.path = .ok path)
    (hkey : path.finalKey? = some key) (v : Json) :
    ∃ s, (⟨[r], none⟩ : Config).compile = .ok s ∧ ∀ t, s.scrub (path.sample v) t =
      ((path.sample v).replaceAt path.samplePosition maskValue, t.touched path 1) := by
  have hredactor : r.redactor = .scrub := by rw [RuleSpec.redactor, hr]
  have hcompile : r.compile = .ok ⟨r.name?, path, .scrub⟩ := by
    rw [RuleSpec.compile, hpath, hr, hredactor]
    rfl
  refine ⟨⟨[⟨r.name?, path, .scrub⟩], none⟩, ?_, fun t => ?_⟩
  · rw [Config.compile, List.mapM_cons, hcompile]
    rfl
  · show Scrubber.applyRule none ⟨r.name?, path, .scrub⟩ (path.sample v) t = _
    rw [Scrubber.applyRule_of_scrub rfl]
    dsimp only
    rw [slots_sample hkey]
    rfl

/-- **The grammar of the paths of rules, and what accepted paths are good for.** A text is refused
for the first of three reasons that fits; every other text is cut at its dots into segments that are
not empty, and in some event the path has one target, where a rule that masks changes one value. -/
theorem parseRule_grammar (dotted : String) :
    (RefusedFor dotted "path is empty" ↔ dotted = "") ∧
    (RefusedFor dotted "path has an empty segment" ↔ dotted ≠ "" ∧ HasGap dotted) ∧
    (RefusedFor dotted "path cannot end with `[]`" ↔
      dotted ≠ "" ∧ ¬ HasGap dotted ∧ EndsWithWildcard dotted) ∧
    (dotted ≠ "" → ¬ HasGap dotted → ¬ EndsWithWildcard dotted →
      let path := parse dotted
      parseRule dotted = .ok path ∧ (∃ key, path.finalKey? = some key) ∧
      (∀ s ∈ path.segments, s.text ≠ "") ∧
      ∃ event ms p v, event.WellFormed ∧ (Targets.of event path).toList = [ms] ∧
        event.at? p = some v ∧ v ≠ maskValue ∧
        ∀ r : RuleSpec, r.path = dotted → r.action = .scrub →
          ∃ s, (⟨[r], none⟩ : Config).compile = .ok s ∧
            ∀ t, s.scrub event t = (event.replaceAt p maskValue, t.touched path 1)) := by
  refine ⟨(refusedFor_iff .empty).trans ?_, (refusedFor_iff .emptySegment).trans ?_,
    (refusedFor_iff .endsWithWildcard).trans ?_, fun hne hgap hend => ?_⟩
  · simp [parseRule_eq_error_iff]
  · simp [parseRule_eq_error_iff]
  · simp [parseRule_eq_error_iff]
  · intro path
    have hpath : parseRule dotted = .ok path := parseRule_eq_ok_of_plain hne hgap hend
    obtain ⟨-, -, hsegments, -⟩ := RuleSpec.parseRule_eq_ok hpath
    have hkey : path.finalKey? = some _ :=
      congrArg (Option.map Segment.text) (List.getLast?_eq_some_getLast (segments_parse_ne_nil hne))
    have hslot : (path.samplePosition, Json.null) ∈ (path.sample .null).slots path := by
      rw [slots_sample hkey]
      exact List.mem_cons_self
    have hmask : Json.null ≠ maskValue := fun h => by cases h
    refine ⟨hpath, ⟨_, hkey⟩, hsegments, path.sample .null, _, path.samplePosition, .null,
      wellFormed_sample path .null, toList_sample hkey .null, (Json.mem_slots.mp hslot).2, hmask, ?_⟩
    rintro r rfl hr
    exact scrub_sample hr hpath hkey .null

/-- A wildcard that is not the last segment does no harm, nor do brackets in a key. -/
theorem parseRule_grammar_frames :
    let dotted := "frames.[].vars.x[]"
    (dotted ≠ "" ∧ ¬ HasGap dotted ∧ ¬ EndsWithWildcard dotted) ∧
    parseRule dotted = .ok (parse dotted) ∧
    parse dotted = .ofTexts ["frames", "[]", "vars", "x[]"] ∧
    ∃ event ms, event.WellFormed ∧ (Targets.of event (parse dotted)).toList = [ms] := by
  intro dotted
  have hne : dotted ≠ "" := by decide
  have hgap : ¬ HasGap dotted := by decide +kernel
  have hend : ¬ EndsWithWildcard dotted := by decide +kernel
  obtain ⟨-, -, -, haccepted⟩ := parseRule_grammar dotted
  obtain ⟨hpath, -, -, event, ms, -, -, hevent, hms, -⟩ := haccepted hne hgap hend
  exact ⟨⟨hne, hgap, hend⟩, hpath, by decide +kernel, event, ms, hevent, hms⟩

/-! ### Where refused paths lead -/

theorem hasKey_of_gap {event : Json} (h : (Targets.of event (parse dotted)).toList ≠ [])
    (hgap : HasGap dotted) : event.HasKey "" := by
  have hne : dotted ≠ "" := by
    rintro rfl
    exact h (Targets.toList_of event _)
  obtain ⟨s, hs, htext⟩ := (exists_empty_segment_iff hne).mpr hgap
  cases s with
  | key k ne =>
    obtain rfl : k = "" := htext
    exact Targets.hasKey_of_toList h hs
  | eachElement => exact absurd htext (by decide)

/-- At the end of a path the wildcard is a key. -/
theorem hasKey_of_endsWithWildcard {event : Json}
    (h : (Targets.of event (parse dotted)).toList ≠ []) (hend : EndsWithWildcard dotted) :
    event.HasKey wildcard := by
  have hne : dotted ≠ "" := by
    rintro rfl
    exact h (Targets.toList_of event _)
  have hkey := congrArg (Option.map Segment.text) ((getLast?_segments_iff hne).mpr hend)
  exact Targets.hasKey_finalKey h hkey

/-- **Where refused paths lead.** In an event in which a refused path has a target, an object has the
empty key if the path has a gap, and the key that is spelled like the wildcard if the path ends with
it; one of both is so. The empty path is the only refused path without a target in every event. -/
theorem targets_refused {e : CompileError} (h : parseRule dotted = .error e) :
    (∀ event : Json, (Targets.of event (parse dotted)).toList ≠ [] →
      (HasGap dotted ∨ EndsWithWildcard dotted) ∧ (HasGap dotted → event.HasKey "") ∧
        (EndsWithWildcard dotted → event.HasKey wildcard)) ∧
    ((∀ event : Json, (Targets.of event (parse dotted)).toList = []) ↔ dotted = "") := by
  have hempty : ∀ event : Json, (Targets.of event (parse "")).toList = [] :=
    fun event => Targets.toList_of event _
  refine ⟨fun event htargets => ⟨?_, hasKey_of_gap htargets, hasKey_of_endsWithWildcard htargets⟩,
    fun hnone => ?_, fun he => by rw [he]; exact hempty⟩
  · rcases parseRule_eq_error_iff.mp h with ⟨rfl, -⟩ | ⟨-, hgap, -⟩ | ⟨-, -, hend, -⟩
    · exact absurd (hempty event) htargets
    · exact Or.inl hgap
    · exact Or.inr hend
  · by_contra hne
    have hkey : (parse dotted).finalKey? = some _ :=
      congrArg (Option.map Segment.text) (List.getLast?_eq_some_getLast (segments_parse_ne_nil hne))
    have hsample := toList_sample hkey .null
    rw [hnone] at hsample
    cases hsample

/-- A gap in a path leads through the empty key, and to some target. -/
theorem targets_refused_gap :
    let path := parse "user..name"
    parseRule "user..name" = .error (.invalidPath "user..name" .emptySegment) ∧
      (∀ event : Json, (Targets.of event path).toList ≠ [] → event.HasKey "") ∧
      ∃ event : Json, (Targets.of event path).toList ≠ [] := by
  intro path
  have hrefused : parseRule "user..name" = .error (.invalidPath "user..name" .emptySegment) := by
    decide +kernel
  have hgap : HasGap "user..name" := by decide +kernel
  obtain ⟨htargets, hnone⟩ := targets_refused hrefused
  refine ⟨hrefused, fun event h => (htargets event h).2.1 hgap, ?_⟩
  exact not_forall.mp fun hall => absurd (hnone.mp hall) (by decide)

/-- A path that is refused because it ends with the wildcard has a target in some event. -/
theorem targets_refused_wildcard :
    let event : Json := .object [("user", .object [("[]", .string "alice")])]
    parseRule "user.[]" = .error (.invalidPath "user.[]" .endsWithWildcard) ∧
      (Targets.of event (parse "user.[]")).toList = [[("[]", .string "alice")]] := by
  intro event
  have hpath : parse "user.[]" = ⟨[.key "user" (by decide), .eachElement]⟩ := by decide +kernel
  refine ⟨by decide +kernel, ?_⟩
  rw [Targets.toList_of, hpath]
  rfl

end Redaction.KeyPath
