import Redaction.Proofs.Mask.Entries
import Redaction.Proofs.Rules.Compile
import Redaction.Proofs.Scrubbing.Coverage
import Redaction.Proofs.Scrubbing.Reordering

/-!
# Scrubbing twice

A rule is settled in an event if its redactor leaves every value within its reach as it is; then the
whole rule leaves the event as it is. A rule with a built-in redactor is settled in what it made of
an event, for its slots are where they were, it reaches as far, and its redactor has nothing to
change in its own replacements and markers (`Rule.settled_effect`). A rule whose path is not related
unsettles it no more than one that masks what is masked already. So a second pass changes nothing
(`Config.scrub_scrub`).
-/

namespace Redaction

open Json Position

/-! ### Redactors -/

namespace Redactor

/-- The redactor has a name, and leaves what it puts in the place of a value as it is. -/
structure Stable (r : Redactor) : Prop where
  hasName : r.hasName = true
  outcome_outcome : ∀ v, r.outcome (r.outcome v) = r.outcome v

variable {name : String} {redact : Json → Except RedactError Json} {v w : Json}

/-- A redactor is stable if it leaves its replacements and the error marker as they are. -/
theorem stable_named (h : ∀ v w, redact v = .ok w → redact w = .ok w)
    (hm : (named name redact).outcome errorMarker = errorMarker) : Stable (named name redact) := by
  refine ⟨rfl, fun v => ?_⟩
  cases hv : redact v with
  | ok w => rw [outcome_of_ok hv, outcome_of_ok (h v w hv)]
  | error e => rw [outcome_of_error hv, hm]

theorem stable_scrub : Stable .scrub := ⟨rfl, fun _ => rfl⟩

/-- The marker is no cookie header. -/
theorem stable_cookies (names : Selection) : Stable (.cookies names) := by
  refine stable_named (fun v w h => Entries.mask_mask (fun _ _ => Cookies.mask_mask) h) ?_
  exact outcome_of_error (e := .malformedCookie "ERROR WHEN SCRUBBING") rfl

/-- The marker is a query string with nothing to mask in it. -/
theorem stable_queryString (names : Selection) : Stable (.queryString names) := by
  refine stable_named (fun v w h => Entries.mask_mask (fun s s' hs => ?_) h) ?_
  · obtain rfl := Except.ok.inj hs
    rw [Query.mask_mask]
  · have hmask : Query.mask names "ERROR WHEN SCRUBBING" = "ERROR WHEN SCRUBBING" :=
      Query.mask_of_not_mem names (by decide)
    refine outcome_of_ok ?_
    show Except.ok (Json.string (Query.mask names "ERROR WHEN SCRUBBING")) = .ok errorMarker
    rw [hmask]
    rfl

end Redactor

theorem RuleSpec.stable_redactor (r : RuleSpec) : r.redactor.Stable := by
  unfold redactor
  cases r.action with
  | scrub => exact Redactor.stable_scrub
  | scrubCookies => exact Redactor.stable_cookies r.selection
  | scrubQueryString => exact Redactor.stable_queryString r.selection

/-! ### One rule -/

namespace Rule

variable {limit : Option Nat} {rule a b : Rule} {event : Json}

/-- The redactor leaves every value within the reach of the rule as it is. -/
def Settled (limit : Option Nat) (rule : Rule) (event : Json) : Prop :=
  ∀ v ∈ (rule.values event).take (rule.reach limit event), rule.redactor.outcome v = v

theorem effect_of_settled (h : rule.Settled limit event) : rule.effect limit event = event := by
  refine replaceAll_at? fun e he => ?_
  obtain ⟨s, hs, rfl⟩ := List.mem_map.mp he
  have hv : s.2 ∈ (rule.values event).take (rule.reach limit event) := by
    rw [values, ← List.map_take]
    exact List.mem_map_of_mem hs
  rw [h s.2 hv]
  exact (mem_slots.mp (List.mem_of_mem_take hs)).2

/-- **After a rule its slots are where they were.** -/
theorem positions_slots_effect (limit : Option Nat) (rule : Rule) (event : Json) :
    ((rule.effect limit event).slots rule.path).map Prod.fst =
      (event.slots rule.path).map Prod.fst :=
  positions_slots_replaceAll fun _ he _ hq hpre =>
    hpre.eq_of_length (KeyPath.length_eq_of_pointsAt (mem_edits he).1 hq)

/-- The values that a rule points at when it has run. -/
theorem values_effect (limit : Option Nat) (rule : Rule) (event : Json) :
    rule.values (rule.effect limit event) =
      ((rule.values event).take (rule.reach limit event)).map rule.redactor.outcome ++
        (rule.values event).drop (rule.reach limit event) := by
  have hat : ((rule.effect limit event).slots rule.path).map (fun s => some s.2) =
      (event.slots rule.path).map fun s => (rule.effect limit event).at? s.1 := by
    have hpositions := congrArg (List.map (rule.effect limit event).at?)
      (positions_slots_effect limit rule event)
    rw [List.map_map, List.map_map] at hpositions
    refine Eq.trans (List.map_congr_left fun s hs => ?_) hpositions
    exact (mem_slots.mp hs).2.symm
  rw [Scrubber.map_at?_slots] at hat
  refine (List.map_inj_right fun _ _ => Option.some.inj).mp ?_
  rw [List.map_append, values, values, ← List.map_take, ← List.map_drop, List.map_map, List.map_map,
    List.map_map, List.map_map]
  exact hat

/-- How far a rule reaches depends on the number of its targets, if its redactor has a name. -/
theorem reachFrom_eq_of_length (h : rule.redactor.hasName = true) {i : Nat} {vs ws : List Json}
    (hl : vs.length = ws.length) : rule.reachFrom limit i vs = rule.reachFrom limit i ws := by
  induction vs generalizing i ws with
  | nil => rw [List.eq_nil_of_length_eq_zero hl.symm]
  | cons v vs ih =>
    obtain ⟨w, ws, rfl⟩ := List.exists_cons_of_length_eq_add_one hl.symm
    have hg : rule.givesUpAt limit v i = rule.givesUpAt limit w i := by
      rw [givesUpAt, givesUpAt, h, Bool.not_true, Bool.and_false, Bool.and_false]
    rw [reachFrom_cons, reachFrom_cons, hg, ih (Nat.succ.inj hl)]

/-- **A rule is settled in what it made of an event.** -/
theorem settled_effect (h : rule.redactor.Stable) (event : Json) :
    rule.Settled limit (rule.effect limit event) := by
  have hlen : (rule.values (rule.effect limit event)).length = (rule.values event).length := by
    rw [values_effect, List.length_append, List.length_map, ← List.length_append,
      List.take_append_drop]
  have hreach : rule.reach limit (rule.effect limit event) = rule.reach limit event :=
    reachFrom_eq_of_length h.hasName hlen
  have hle : rule.reach limit event ≤ (rule.values event).length := reachFrom_le 0 _
  intro v hv
  rw [hreach, values_effect, List.take_left' (by rw [List.length_map, List.length_take]; omega)]
    at hv
  obtain ⟨w, -, rfl⟩ := List.mem_map.mp hv
  exact h.outcome_outcome w

theorem Settled.effect (h : ¬ KeyPath.Related a.path b.path) (hb : b.Settled limit event) :
    b.Settled limit (a.effect limit event) := by
  unfold Settled at hb ⊢
  rw [reach, values, slots_effect h]
  exact hb

/-- A masking rule is settled where what it points at is masked. -/
theorem settled_of_masked (h : rule.redactor = .scrub) (hm : Masked rule.path event) :
    rule.Settled limit event := by
  intro v hv
  obtain ⟨s, hs, rfl⟩ := List.mem_map.mp (List.mem_of_mem_take hv)
  obtain ⟨hp, hat⟩ := mem_slots.mp hs
  rw [h, hm s.1 s.2 hp hat]
  rfl

end Rule

/-! ### Many rules -/

namespace Scrubber

variable {limit : Option Nat} {rules : List Rule}

theorem foldl_effect_of_settled {event : Json} (h : ∀ r ∈ rules, r.Settled limit event) :
    rules.foldl (Rule.effect limit) event = event := by
  refine foldl_effect_keeps (P := fun e => e = event) ?_ rfl
  intro r hr e he
  rw [he, Rule.effect_of_settled (h r hr)]

/-- Rules whose paths are not related are settled after a pass. -/
theorem settled_foldl_effect (hr : ∀ r ∈ rules, r.redactor.Stable)
    (h : rules.Pairwise fun a b => ¬ KeyPath.Related a.path b.path) (event : Json) :
    ∀ r ∈ rules, r.Settled limit (rules.foldl (Rule.effect limit) event) := by
  refine foldl_effect_establishes (P := Rule.Settled limit) ?_ ?_ event
  · exact fun r hmem e => Rule.settled_effect (hr r hmem) e
  · exact h.imp fun hab _ hs => hs.effect fun hba => hab hba.symm

/-- A pass in which every rule is settled changes nothing. -/
theorem scrub_fst_of_settled {s : Scrubber} {event : Json} (t : Telemetry)
    (h : ∀ r ∈ s.rules, r.Settled s.maxTargets event) : (s.scrub event t).1 = event := by
  rw [scrub_fst, foldl_effect_of_settled h]

end Scrubber

namespace Config

/-- **To scrub twice is to scrub once.** A second pass of a scrubber that was compiled from a
configuration leaves the event of the first as it is, if no path of a rule is related to that of
another, or if all rules mask without a limit. -/
theorem scrub_scrub (c : Config) (s : Scrubber) (hs : c.compile = .ok s)
    (h : (c.rules.Pairwise fun a b => ¬ KeyPath.Related (.parse a.path) (.parse b.path)) ∨
      (c.maxTargets = none ∧ ∀ r ∈ c.rules, r.action = .scrub))
    (event : Json) (t t' : Telemetry) :
    (s.scrub (s.scrub event t).1 t').1 = (s.scrub event t).1 := by
  obtain rfl := compile_eq_ok hs
  refine Scrubber.scrub_fst_of_settled t' ?_
  rw [Scrubber.scrub_fst]
  dsimp only
  rcases h with h | ⟨hlimit, h⟩
  · refine Scrubber.settled_foldl_effect (fun rule hrule => ?_) ?_ event
    · obtain ⟨r, -, rfl⟩ := List.mem_map.mp hrule
      exact r.stable_redactor
    · exact List.pairwise_map.mpr h
  · have hscrub : ∀ rule ∈ c.rules.map RuleSpec.rule, rule.redactor = .scrub := by
      intro rule hrule
      obtain ⟨r, hr, rfl⟩ := List.mem_map.mp hrule
      show r.redactor = .scrub
      rw [RuleSpec.redactor, h r hr]
    intro rule hrule
    rw [hlimit]
    exact Rule.settled_of_masked (hscrub rule hrule)
      (Scrubber.masked_foldl_effect_of_mem hscrub event rule hrule)

/-- A header is written anew, another is malformed, a query is an array of pairs, and only the first
of two targets is within the limit. -/
theorem scrub_scrub_marked :
    let c : Config := ⟨[⟨none, none, "h.cookie", .scrubCookies, [], true⟩,
      ⟨none, none, "h.other", .scrubCookies, ["a"], false⟩,
      ⟨none, none, "query", .scrubQueryString, ["token"], false⟩,
      ⟨none, none, "items.[].key", .scrub, [], false⟩], some 1⟩
    let s : Scrubber := ⟨c.rules.map RuleSpec.rule, c.maxTargets⟩
    let item : Json := .object [("key", .null)]
    let event : Json := .object [
      ("h", .object [("cookie", .string " id = 1;b="), ("other", .string "no header")]),
      ("query", .array [.array [.string "token", .null], .null]), ("items", .array [item, item])]
    c.compile = .ok s ∧
      (c.rules.Pairwise fun a b => ¬ KeyPath.Related (.parse a.path) (.parse b.path)) ∧
      (s.scrub event .empty).1 = .object [
        ("h", .object [("cookie", .string "id=[Scrubbed]; b="),
          ("other", .string "ERROR WHEN SCRUBBING")]),
        ("query", .array [.array [.string "token", .string "[Scrubbed]"], .null]),
        ("items", .array [.object [("key", .string "[Scrubbed]")], item])] ∧
      (s.scrub (s.scrub event .empty).1 .empty).1 = (s.scrub event .empty).1 := by
  intro c s item event
  have hs : c.compile = .ok s := rfl
  have hc : c.rules.Pairwise fun a b => ¬ KeyPath.Related (.parse a.path) (.parse b.path) := by
    decide
  exact ⟨hs, hc, rfl, scrub_scrub c s hs (Or.inl hc) event .empty .empty⟩

end Config

end Redaction
