import Mathlib.Data.List.Induction
import Redaction.Proofs.Scrubbing.Coverage
import Redaction.Proofs.Scrubbing.Frame

/-!
# What is masked does not show

If all rules mask, the event that leaves the scrubber is told by what is outside of their paths: at
the positions they point at stands the mask, and nothing is below it. So events that differ only
there leave the scrubber as one event (`scrub_eq_of_agree`). No relation between the events on the
way is needed, although the targets of a rule in one run may be missing in the other.
-/

namespace Redaction

open Json Position

/-- The events have the same outlines wherever no path points at the position or at a part
around it. -/
def AgreeOutside (paths : List KeyPath) (a b : Json) : Prop :=
  ∀ p, Outside paths p → a.outlineAt p = b.outlineAt p

theorem agreeOutside_replaceAll {paths : List KeyPath} {event : Json}
    {edits : List (Position × Json)}
    (h : ∀ e ∈ edits, ∃ path ∈ paths, path.pointsAt e.1 = true) :
    AgreeOutside paths event (event.replaceAll edits) := by
  intro p hp
  refine (outlineAt_replaceAll fun e he hep => ?_).symm
  obtain ⟨path, hpath, hpoints⟩ := h e he
  rw [hp path hpath e.1 hep] at hpoints
  cases hpoints

/-! ### Masked events -/

namespace Masked

variable {path : KeyPath} {event : Json} {p q : Position}

theorem at?_eq (h : Masked path event) (hp : path.pointsAt p = true)
    (hs : (event.at? p).isSome) : event.at? p = some maskValue := by
  obtain ⟨v, hv⟩ := Option.isSome_iff_exists.mp hs
  rw [hv, h p v hp hv]

/-- There is nothing in a masked part. -/
theorem at?_append_eq_none (h : Masked path event) (hp : path.pointsAt p = true) (hq : q ≠ []) :
    event.at? (p ++ q) = none := by
  obtain ⟨t, q, rfl⟩ := List.exists_cons_of_ne_nil hq
  rw [at?_append]
  cases hv : event.at? p with
  | none => rfl
  | some v =>
    rw [h p v hp hv]
    rfl

end Masked

/-- **Masked events that agree outside of the paths have the same outlines everywhere.** -/
theorem outlineAt_eq_of_masked {paths : List KeyPath} {a b : Json}
    (ha : ∀ path ∈ paths, Masked path a) (hb : ∀ path ∈ paths, Masked path b)
    (h : AgreeOutside paths a b) (p : Position) : a.outlineAt p = b.outlineAt p := by
  -- from the root downwards: a part is there in both events or in neither
  induction p using List.reverseRecOn with
  | nil => exact h [] (outside_nil paths)
  | append_singleton p t ih =>
    by_cases hp : Outside paths (p ++ [t])
    · exact h _ hp
    · obtain ⟨path, hpath, q, hq, hpoints⟩ := not_outside.mp hp
      unfold outlineAt
      rcases List.prefix_concat_iff.mp hq with rfl | ⟨r, rfl⟩
      · have hsome := isSome_at?_concat t ih
        by_cases hs : (a.at? (p ++ [t])).isSome
        · rw [(ha path hpath).at?_eq hpoints hs, (hb path hpath).at?_eq hpoints (hsome ▸ hs)]
        · have hs' : ¬ (b.at? (p ++ [t])).isSome := hsome ▸ hs
          rw [Option.not_isSome_iff_eq_none.mp hs, Option.not_isSome_iff_eq_none.mp hs']
      · have hne : r ++ [t] ≠ [] := List.append_ne_nil_of_right_ne_nil r (List.cons_ne_nil t [])
        rw [List.append_assoc, (ha path hpath).at?_append_eq_none hpoints hne,
          (hb path hpath).at?_append_eq_none hpoints hne]

/-! ### Scrubbers that mask -/

theorem wellFormed_maskValue : maskValue.WellFormed := .string maskText

namespace Rule

variable {rule : Rule}

theorem wellFormed_effect_scrub (h : rule.redactor = .scrub) {event : Json}
    (he : event.WellFormed) : (rule.effect none event).WellFormed := by
  refine he.replaceAll fun e hmem => ?_
  obtain ⟨-, v, -, hv⟩ := mem_edits hmem
  rw [hv, h]
  exact wellFormed_maskValue

theorem tally_scrub (h : rule.redactor = .scrub) (event : Json) :
    rule.tally none event = .zero := by
  have hnone : ∀ values : List Json, values.countP rule.redactor.failsOn = 0 := by
    intro values
    rw [List.countP_eq_zero, h]
    exact fun v _ hf => by cases hf
  rw [tally, hnone, if_neg (by rw [reach_scrub h]; exact Nat.lt_irrefl _)]
  rfl

end Rule

namespace Scrubber

variable {s : Scrubber}

theorem wellFormed_foldl_effect {rules : List Rule} (h : ∀ r ∈ rules, r.redactor = .scrub)
    {event : Json} (he : event.WellFormed) : (rules.foldl (Rule.effect none) event).WellFormed :=
  foldl_effect_keeps (fun r hr _ he => Rule.wellFormed_effect_scrub (h r hr) he) he

/-- Rules that mask without a limit count no failure. -/
theorem failures_scrub {rules : List Rule} (h : ∀ r ∈ rules, r.redactor = .scrub) (event : Json)
    (t : Telemetry) : ((⟨rules, none⟩ : Scrubber).scrub event t).2.failures = t.failures := by
  induction rules generalizing event t with
  | nil => rfl
  | cons r rules ih =>
    have hrest : ∀ r' ∈ rules, r'.redactor = .scrub :=
      fun r' hr' => h r' (List.mem_cons_of_mem r hr')
    rw [scrub_cons]
    dsimp only
    rw [ih hrest, failures_applyRule, Rule.tally_scrub (h r List.mem_cons_self)]
    rfl

/-- **What is masked does not show.** Two events, in which no object has a key twice, that agree
outside of the paths of the rules leave a scrubber that masks without a limit as one event, and no
failure is counted in either run. -/
theorem scrub_eq_of_agree (s : Scrubber) (hlimit : s.maxTargets = none)
    (hscrub : ∀ r ∈ s.rules, r.redactor = .scrub) (a b : Json) (ha : a.WellFormed)
    (hab : AgreeOutside (s.rules.map Rule.path) a b) (t t' : Telemetry) :
    (s.scrub a t).1 = (s.scrub b t').1 ∧ (s.scrub a t).2.failures = t.failures ∧
      (s.scrub b t').2.failures = t'.failures := by
  obtain ⟨rules, limit⟩ := s
  obtain rfl : limit = none := hlimit
  refine ⟨?_, failures_scrub hscrub a t, failures_scrub hscrub b t'⟩
  have hmasked : ∀ event, ∀ path ∈ rules.map Rule.path,
      Masked path (rules.foldl (Rule.effect none) event) := by
    intro event path hpath
    obtain ⟨r, hr, rfl⟩ := List.mem_map.mp hpath
    exact masked_foldl_effect_of_mem hscrub event r hr
  have hagree : AgreeOutside (rules.map Rule.path) (rules.foldl (Rule.effect none) a)
      (rules.foldl (Rule.effect none) b) := by
    intro p hp
    rw [outlineAt_foldl_effect hp, hab p hp, outlineAt_foldl_effect hp]
  rw [scrub_fst, scrub_fst]
  exact eq_of_outlineAt (wellFormed_foldl_effect hscrub ha)
    (outlineAt_eq_of_masked (hmasked a) (hmasked b) hagree)

/-- The long path finds its member in one event only, where the short path, which comes after it,
then masks the whole. -/
theorem scrub_eq_of_agree_nested :
    let s : Scrubber := ⟨[⟨none, .ofTexts ["u", "[]", "p"], .scrub⟩, ⟨none, .ofTexts ["u"], .scrub⟩,
      ⟨none, .ofTexts ["l", "[]", "k"], .scrub⟩], none⟩
    let a : Json := .object [("u", .array [.object [("p", .bool true)]]),
      ("l", .array [.null, .object [("k", .string "secret"), ("n", .null)]])]
    let b : Json := .object [("u", .string "other"),
      ("l", .array [.null, .object [("k", .object [("k", .null)]), ("n", .null)]])]
    a.WellFormed ∧ AgreeOutside (s.rules.map Rule.path) a b ∧
      (s.scrub a .empty).1 = .object [("u", .string "[Scrubbed]"),
        ("l", .array [.null, .object [("k", .string "[Scrubbed]"), ("n", .null)]])] ∧
      (s.scrub a .empty).1 = (s.scrub b .empty).1 := by
  intro s a b
  have ha : a.WellFormed := by
    simp [a, Members.keys, WellFormed.null, WellFormed.bool, WellFormed.string]
  let edits : List (Position × Json) := [([.member "u"], .string "other"),
    ([.member "l", .element 1, .member "k"], .object [("k", .null)])]
  have hedits : ∀ e ∈ edits, ∃ path ∈ s.rules.map Rule.path, path.pointsAt e.1 = true := by decide
  have hab : AgreeOutside (s.rules.map Rule.path) a b := agreeOutside_replaceAll hedits
  exact ⟨ha, hab, rfl, (scrub_eq_of_agree s rfl (by simp [s]) a b ha hab .empty .empty).1⟩

end Scrubber

end Redaction
