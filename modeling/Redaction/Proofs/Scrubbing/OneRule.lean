import Redaction.Proofs.Path.Editing
import Redaction.Scrubber

/-!
# What one rule does

A rule redacts its targets in document order. It gives up at a target beyond the limit, and at one
on which its redactor fails while the name of the redactor cannot be asked for; there and after it
everything stays. Before it each value gives way to its replacement or to the error marker, and each
failure is counted (`applyRule_fst`, `applyRule_snd`).
-/

namespace Redaction

open Json Position

namespace Redactor

/-- What takes the place of a value. -/
def outcome (r : Redactor) (v : Json) : Json :=
  match r.redact v with
  | .value w => w
  | _ => errorMarker

/-- The redactor has no replacement for the value. -/
def failsOn (r : Redactor) (v : Json) : Bool :=
  match r.redact v with
  | .value _ => false
  | _ => true

/-- The name of the redactor can be asked for. -/
def hasName (r : Redactor) : Bool :=
  match r.name with
  | .ok _ => true
  | .error _ => false

variable {r : Redactor} {v : Json}

theorem answer_of_not_failsOn (h : r.failsOn v = false) : r.answer v = .ok (r.outcome v) := by
  unfold failsOn at h
  unfold answer outcome
  cases hr : r.redact v with
  | value w => rfl
  | _ => rw [hr] at h; cases h

theorem answer_of_failsOn (h : r.failsOn v = true) :
    (∃ e, r.answer v = .error e) ∧ r.outcome v = errorMarker := by
  unfold failsOn at h
  unfold answer outcome
  cases hr : r.redact v with
  | value w => rw [hr] at h; cases h
  | error e => exact ⟨⟨e, rfl⟩, rfl⟩
  | panic p => exact ⟨⟨_, rfl⟩, rfl⟩

theorem name_of_hasName (h : r.hasName = true) : ∃ name, r.name = .ok name := by
  unfold hasName at h
  cases hn : r.name with
  | ok name => exact ⟨name, rfl⟩
  | error p => rw [hn] at h; cases h

theorem name_of_not_hasName (h : r.hasName = false) : ∃ p, r.name = .error p := by
  unfold hasName at h
  cases hn : r.name with
  | ok name => rw [hn] at h; cases h
  | error p => exact ⟨p, rfl⟩

section Named

variable {name : String} {redact : Json → Except RedactError Json} {w : Json}

theorem outcome_of_ok (h : redact v = .ok w) : (named name redact).outcome v = w := by
  simp only [outcome, named, h]

theorem outcome_of_error {e : RedactError} (h : redact v = .error e) :
    (named name redact).outcome v = errorMarker := by
  simp only [outcome, named, h]

end Named

end Redactor

instance : Add Failures :=
  ⟨fun f g => ⟨f.redactorErrors + g.redactorErrors, f.traversalErrors + g.traversalErrors⟩⟩

theorem Failures.add_right_comm (f g h : Failures) : f + g + h = f + h + g := by
  show Failures.mk (f.redactorErrors + g.redactorErrors + h.redactorErrors)
    (f.traversalErrors + g.traversalErrors + h.traversalErrors) = _
  rw [Nat.add_right_comm, Nat.add_right_comm f.traversalErrors]
  rfl

namespace Rule

/-- The rule gives up at the target with index `i`, counted from zero, that holds `v`. -/
def givesUpAt (limit : Option Nat) (rule : Rule) (v : Json) (i : Nat) : Bool :=
  limit.any (· ≤ i) || (rule.redactor.failsOn v && !rule.redactor.hasName)

/-- Why the rule gives up at the target with index `i` that holds `v`, if it does. -/
def obstacle? (limit : Option Nat) (rule : Rule) (v : Json) (i : Nat) : Option TraversalError :=
  if limit = some i then some (.targetLimitExceeded i)
  else match rule.redactor.answer v, rule.redactor.name with
    | .error _, .error p => some (.panicked p.message)
    | _, _ => none

/-- How many of its targets the rule redacts; `i` is the index of the first. -/
def reachFrom (limit : Option Nat) (rule : Rule) (i : Nat) (values : List Json) : Nat :=
  (values.zipIdx i).findIdx fun (v, i) => rule.givesUpAt limit v i

/-- The values that the rule points at in an event, in document order. -/
def values (rule : Rule) (event : Json) : List Json := (event.slots rule.path).map Prod.snd

/-- How many of its targets in an event the rule redacts. -/
def reach (limit : Option Nat) (rule : Rule) (event : Json) : Nat :=
  rule.reachFrom limit 0 (rule.values event)

/-- The telemetry after the rule has redacted a value. -/
def note (rule : Rule) (t : Telemetry) (v : Json) : Telemetry :=
  match rule.redactor.answer v, rule.redactor.name with
  | .error e, .ok name => t.redactorFailed name rule.path e
  | _, _ => t

/-- The values that the rule puts into an event, with their positions. -/
def edits (limit : Option Nat) (rule : Rule) (event : Json) : List (Position × Json) :=
  ((event.slots rule.path).take (rule.reach limit event)).map fun s =>
    (s.1, rule.redactor.outcome s.2)

/-- The event after the rule. -/
def effect (limit : Option Nat) (event : Json) (rule : Rule) : Json :=
  event.replaceAll (rule.edits limit event)

/-- The failures that the rule counts in an event. -/
def tally (limit : Option Nat) (rule : Rule) (event : Json) : Failures :=
  ⟨((rule.values event).take (rule.reach limit event)).countP rule.redactor.failsOn,
    if rule.reach limit event < (rule.values event).length then 1 else 0⟩

/-- The event and the failures counted after the rule. -/
def step (limit : Option Nat) (s : Json × Failures) (rule : Rule) : Json × Failures :=
  (rule.effect limit s.1, s.2 + rule.tally limit s.1)

variable {limit : Option Nat} {rule : Rule}

theorem mem_edits {e : Position × Json} {event : Json} (h : e ∈ rule.edits limit event) :
    rule.path.pointsAt e.1 = true ∧
      ∃ v, event.at? e.1 = some v ∧ e.2 = rule.redactor.outcome v := by
  obtain ⟨s, hs, rfl⟩ := List.mem_map.mp h
  obtain ⟨hp, hv⟩ := mem_slots.mp (List.mem_of_mem_take hs)
  exact ⟨hp, s.2, hv, rfl⟩

theorem pairwise_edits (limit : Option Nat) (rule : Rule) (event : Json) :
    (rule.edits limit event).Pairwise fun a b => Apart a.1 b.1 := by
  rw [edits, List.pairwise_map]
  exact (pairwise_slots event rule.path).sublist (List.take_sublist _ _)

theorem reachFrom_cons (i : Nat) (v : Json) (vs : List Json) :
    rule.reachFrom limit i (v :: vs) =
      if rule.givesUpAt limit v i then 0 else rule.reachFrom limit (i + 1) vs + 1 := by
  rw [reachFrom, List.zipIdx_cons, List.findIdx_cons, Bool.cond_eq_ite]
  rfl

theorem reachFrom_le (i : Nat) (vs : List Json) : rule.reachFrom limit i vs ≤ vs.length := by
  have h : rule.reachFrom limit i vs ≤ (vs.zipIdx i).length := List.findIdx_le_length
  rwa [List.length_zipIdx] at h

/-- Where the rule does not give up, every failure has a name. -/
theorem hasName_of_mem_take {i : Nat} {v : Json} {vs : List Json}
    (hv : v ∈ vs.take (rule.reachFrom limit i vs)) (hf : rule.redactor.failsOn v = true) :
    rule.redactor.hasName = true := by
  induction vs generalizing i with
  | nil => simp at hv
  | cons w vs ih =>
    rw [reachFrom_cons] at hv
    split at hv
    · cases hv
    · next hg =>
      rcases List.mem_cons.mp hv with rfl | hv
      · simp only [givesUpAt, hf, Bool.true_and, Bool.or_eq_true, Bool.not_eq_true',
          not_or, Bool.not_eq_false] at hg
        exact hg.2
      · exact ih hv

theorem failures_note {t : Telemetry} {v : Json}
    (h : rule.redactor.failsOn v = true → rule.redactor.hasName = true) :
    (rule.note t v).failures =
      ⟨t.failures.redactorErrors + (if rule.redactor.failsOn v then 1 else 0),
        t.failures.traversalErrors⟩ := by
  unfold note
  cases hf : rule.redactor.failsOn v with
  | false => rw [Redactor.answer_of_not_failsOn hf]; rfl
  | true =>
    obtain ⟨⟨e, he⟩, -⟩ := Redactor.answer_of_failsOn hf
    obtain ⟨name, hname⟩ := Redactor.name_of_hasName (h hf)
    rw [he, hname]
    rfl

theorem failures_foldl_note {t : Telemetry} {vs : List Json}
    (h : ∀ v ∈ vs, rule.redactor.failsOn v = true → rule.redactor.hasName = true) :
    (vs.foldl rule.note t).failures =
      ⟨t.failures.redactorErrors + vs.countP rule.redactor.failsOn,
        t.failures.traversalErrors⟩ := by
  induction vs generalizing t with
  | nil => rfl
  | cons v vs ih =>
    rw [List.foldl_cons, ih fun w hw => h w (List.mem_cons_of_mem v hw),
      failures_note (h v List.mem_cons_self), List.countP_cons, Nat.add_assoc]
    simp only [Nat.add_comm]

end Rule

namespace Scrubber

variable {limit : Option Nat} {rule : Rule} {key : String} {ms : Members} {v : Json} {i : Nat}
  {t : Telemetry}

/-! ### One target -/

theorem redactTarget_of_not_givesUpAt (hv : Members.get? key ms = some v)
    (hg : rule.givesUpAt limit v i = false) :
    redactTarget limit rule key ms (i, t) =
      ⟨Members.set key (rule.redactor.outcome v) ms, (i + 1, rule.note t v), none⟩ := by
  simp only [Rule.givesUpAt, Bool.or_eq_false_iff, Bool.and_eq_false_iff,
    Bool.not_eq_false'] at hg
  obtain ⟨hl, hn⟩ := hg
  have hlimit : limit ≠ some i := by
    rintro rfl
    simp at hl
  unfold redactTarget Rule.note
  dsimp only
  rw [if_neg hlimit, hv]
  cases hf : rule.redactor.failsOn v with
  | false => simp only [Redactor.answer_of_not_failsOn hf]
  | true =>
    obtain ⟨⟨e, he⟩, ho⟩ := Redactor.answer_of_failsOn hf
    obtain ⟨name, hname⟩ := Redactor.name_of_hasName (hn.resolve_left (by rw [hf]; decide))
    simp only [he, hname, ho]

theorem redactTarget_of_givesUpAt (hi : ∀ n, limit = some n → i ≤ n)
    (hv : Members.get? key ms = some v) (hg : rule.givesUpAt limit v i = true) :
    ∃ touched e, rule.obstacle? limit v i = some e ∧
      redactTarget limit rule key ms (i, t) = ⟨ms, (touched, t), some e⟩ := by
  unfold redactTarget Rule.obstacle?
  dsimp only
  by_cases hl : limit = some i
  · exact ⟨_, _, if_pos hl, if_pos hl⟩
  · rw [if_neg hl, if_neg hl, hv]
    have hany : limit.any (· ≤ i) = false := by
      cases limit with
      | none => rfl
      | some n =>
        have hle := hi n rfl
        have hne : n ≠ i := fun h => hl (by rw [h])
        simp only [Option.any_some, decide_eq_false_iff_not]
        omega
    rw [Rule.givesUpAt, hany, Bool.false_or, Bool.and_eq_true, Bool.not_eq_true'] at hg
    obtain ⟨⟨e, he⟩, -⟩ := Redactor.answer_of_failsOn hg.1
    obtain ⟨p, hp⟩ := Redactor.name_of_not_hasName hg.2
    simp only [he, hp]
    exact ⟨_, _, rfl, rfl⟩

/-! ### All targets -/

/-- The targets before the one where the rule gives up are redacted; that one is looked at and
left as it is. -/
theorem visitPlaces_redactTarget {ps : List Place}
    (hk : ∀ p ∈ ps, Members.contains key p.members = true) (hi : ∀ n, limit = some n → i ≤ n) :
    let values := ps.map fun p => (p.slot key).2
    let k := rule.reachFrom limit i values
    ∃ touched error, (redactTarget limit rule key).visitPlaces ps (i, t) =
      ⟨(ps.take k).map (fun p => (p.position,
          object (Members.set key (rule.redactor.outcome (p.slot key).2) p.members))) ++
        ((ps.drop k).take 1).map (fun p => (p.position, object p.members)),
        (touched, (values.take k).foldl rule.note t), error⟩ ∧
      error = values[k]?.bind (fun v => rule.obstacle? limit v (i + k)) ∧
      (error = none ↔ k = ps.length) ∧ (error = none → touched = i + ps.length) := by
  induction ps generalizing i t with
  | nil => exact ⟨i, none, rfl, rfl, ⟨fun _ => rfl, fun _ => rfl⟩, fun _ => rfl⟩
  | cons p ps ih =>
    obtain ⟨v, hv⟩ := Option.isSome_iff_exists.mp (hk p List.mem_cons_self)
    have hs : (p.slot key).2 = v := by rw [Place.slot, hv]; rfl
    dsimp only
    rw [List.map_cons, hs, Rule.reachFrom_cons, Visitor.visitPlaces]
    cases hg : rule.givesUpAt limit v i with
    | true =>
      obtain ⟨touched, e, ho, he⟩ := redactTarget_of_givesUpAt (t := t) hi hv hg
      rw [he]
      refine ⟨touched, some e, rfl, ho.symm, ⟨fun h => ?_, fun h => ?_⟩, fun h => ?_⟩
      · cases h
      · cases h
      · cases h
    | false =>
      have hi' : ∀ n, limit = some n → i + 1 ≤ n := by
        rintro n rfl
        simp only [Rule.givesUpAt, Option.any_some, Bool.or_eq_false_iff,
          decide_eq_false_iff_not] at hg
        omega
      obtain ⟨touched, error, h1, ho, h2, h3⟩ :=
        ih (i := i + 1) (t := rule.note t v) (fun q hq => hk q (List.mem_cons_of_mem p hq)) hi'
      rw [redactTarget_of_not_givesUpAt hv hg]
      dsimp only
      rw [h1]
      refine ⟨touched, error, ?_, ?_, ?_, fun h => ?_⟩
      · simp [hs]
      · rw [ho]
        simp [Nat.add_assoc, Nat.add_comm 1]
      · rw [h2]
        simp
      · rw [h3 h, List.length_cons]
        omega

end Scrubber

namespace Scrubber

variable {limit : Option Nat} {rule : Rule} {event : Json} {t : Telemetry}

/-- The rule puts its edits into the event, and notes what became of the values it redacted. -/
theorem visitTargets_redactTarget (limit : Option Nat) (rule : Rule) (event : Json)
    (t : Telemetry) :
    ∃ touched error,
      event.visitTargets rule.path (redactTarget limit rule (rule.path.finalKey?.getD "")) (0, t) =
        ⟨event.replaceAll (rule.edits limit event),
          (touched, ((rule.values event).take (rule.reach limit event)).foldl rule.note t), error⟩ ∧
      error = (rule.values event)[rule.reach limit event]?.bind
        (fun v => rule.obstacle? limit v (rule.reach limit event)) ∧
      (error = none ↔ rule.reach limit event = (rule.values event).length) ∧
      (error = none → touched = (rule.values event).length) := by
  generalize hkey : rule.path.finalKey?.getD "" = key
  generalize hreach : rule.reach limit event = k
  have hvalues : rule.values event = (event.places rule.path).map fun p => (p.slot key).2 := by
    rw [← hkey]
    exact List.map_map
  have hlen : (event.places rule.path).length = (rule.values event).length := by
    rw [hvalues, List.length_map]
  have hk : ∀ p ∈ event.places rule.path, Members.contains key p.members = true := by
    rw [← hkey]
    exact fun p hp => contains_of_mem_places hp
  obtain ⟨touched, error, h1, ho, h2, h3⟩ :=
    visitPlaces_redactTarget (t := t) hk fun n (_ : limit = some n) => Nat.zero_le n
  rw [← hvalues, show rule.reachFrom limit 0 (rule.values event) = k from hreach] at h1 ho h2
  rw [Nat.zero_add] at ho
  rw [hlen] at h2
  rw [hlen, Nat.zero_add] at h3
  have hedits : rule.edits limit event = ((event.places rule.path).take k).map fun p =>
      (p.position ++ [.member key], rule.redactor.outcome (p.slot key).2) := by
    rw [Rule.edits, hreach, slots, hkey, ← List.map_take, List.map_map]
    rfl
  -- the target where the rule gives up comes after those it redacts, and is put back
  have hreached : (event.places rule.path).take k ++ ((event.places rule.path).drop k).take 1 =
      (event.places rule.path).take (k + 1) := List.take_add.symm
  refine ⟨touched, error, ?_, ho, h2, h3⟩
  rw [visitTargets_eq_visitPlaces, h1, hedits]
  dsimp only
  rw [replaceAll_members_append, hvalues]
  · rw [hreached]
    exact (pairwise_places event rule.path).sublist (List.take_sublist _ _)
  · exact fun p hp => hk p (List.mem_of_mem_take hp)
  · rw [hreached]
    exact fun p hp => at?_of_mem_places (List.mem_of_mem_take hp)

/-- **What one rule makes of an event.** -/
theorem applyRule_fst (limit : Option Nat) (rule : Rule) (event : Json) (t : Telemetry) :
    (applyRule limit rule event t).1 = rule.effect limit event := by
  obtain ⟨touched, error, h, -, -, -⟩ := visitTargets_redactTarget limit rule event t
  unfold applyRule
  dsimp only
  rw [h]
  cases error <;> rfl

/-- **What one rule reports.** The failures on the values it redacted, and then how it ended. -/
theorem applyRule_snd (limit : Option Nat) (rule : Rule) (event : Json) (t : Telemetry) :
    (rule.reach limit event = (rule.values event).length ∧
      (applyRule limit rule event t).2 =
        ((rule.values event).foldl rule.note t).touched rule.path (rule.values event).length) ∨
    (rule.reach limit event < (rule.values event).length ∧ ∃ e,
      (rule.values event)[rule.reach limit event]?.bind
        (fun v => rule.obstacle? limit v (rule.reach limit event)) = some e ∧
      (applyRule limit rule event t).2 =
        (((rule.values event).take (rule.reach limit event)).foldl rule.note t).walkFailed
          rule.path e) := by
  obtain ⟨touched, error, h, ho, h1, h2⟩ := visitTargets_redactTarget limit rule event t
  unfold applyRule
  dsimp only
  rw [h]
  cases error with
  | none =>
    have hk := h1.mp rfl
    refine Or.inl ⟨hk, ?_⟩
    rw [hk, List.take_length, h2 rfl]
  | some e =>
    have hle : rule.reach limit event ≤ (rule.values event).length := Rule.reachFrom_le 0 _
    have hne : rule.reach limit event ≠ (rule.values event).length := fun he => by cases h1.mpr he
    exact Or.inr ⟨by omega, e, ho.symm, rfl⟩

/-- **The failures that one rule counts.** -/
theorem failures_applyRule (limit : Option Nat) (rule : Rule) (event : Json) (t : Telemetry) :
    (applyRule limit rule event t).2.failures = t.failures + rule.tally limit event := by
  have hn := Rule.failures_foldl_note (t := t)
    fun v (hv : v ∈ (rule.values event).take (rule.reach limit event)) hf =>
      Rule.hasName_of_mem_take hv hf
  rcases applyRule_snd limit rule event t with ⟨hk, h⟩ | ⟨hk, e, -, h⟩
  · rw [hk, List.take_length] at hn
    rw [h, Rule.tally, hk, List.take_length, if_neg (Nat.lt_irrefl _)]
    exact hn
  · rw [h, Rule.tally, if_pos hk]
    show Failures.mk _ _ = _
    rw [hn]
    rfl

/-! ### The slots of a rule -/

/-- The slots stand in the targets that come one after another, under the final key. -/
theorem map_slots_toList (event : Json) (path : KeyPath) :
    (event.slots path).map (fun s => (event.at? s.1.dropLast, s.1.getLast?, some s.2)) =
      (Targets.of event path).toList.map fun ms => (some (object ms),
        some (Step.member (path.finalKey?.getD "")), Members.get? (path.finalKey?.getD "") ms) := by
  rw [Targets.toList_of, slots, List.map_map, List.map_map]
  refine List.map_congr_left fun p hp => ?_
  obtain ⟨v, hv⟩ := Option.isSome_iff_exists.mp (contains_of_mem_places hp)
  simp only [Function.comp_apply, Place.slot, List.dropLast_concat, List.getLast?_concat,
    at?_of_mem_places hp, hv, Option.getD_some]

/-- The values that a rule points at are those under the final key of its targets. -/
theorem values_eq_filterMap (rule : Rule) (event : Json) :
    rule.values event = (Targets.of event rule.path).toList.filterMap
      (Members.get? (rule.path.finalKey?.getD "")) := by
  have h := congrArg (List.filterMap fun e => e.2.2) (map_slots_toList event rule.path)
  rw [List.filterMap_map, List.filterMap_map] at h
  rw [Rule.values, ← List.filterMap_eq_map]
  exact h

theorem length_values (rule : Rule) (event : Json) :
    (rule.values event).length = (Targets.of event rule.path).toList.length := by
  have h := congrArg List.length (map_slots_toList event rule.path)
  rw [List.length_map, List.length_map] at h
  rw [Rule.values, List.length_map, h]

/-- The slots before the end of a rule's reach hold what its redactor made of them. -/
theorem map_at?_slots (limit : Option Nat) (rule : Rule) (event : Json) :
    (event.slots rule.path).map (fun s => (rule.effect limit event).at? s.1) =
      ((event.slots rule.path).take (rule.reach limit event)).map
          (fun s => some (rule.redactor.outcome s.2)) ++
        ((event.slots rule.path).drop (rule.reach limit event)).map fun s => some s.2 := by
  have hedits : rule.edits limit event = ((event.slots rule.path).take (rule.reach limit event)).map
      fun s => (s.1, rule.redactor.outcome s.2) := rfl
  generalize rule.reach limit event = k at hedits
  have hslot : ∀ s ∈ event.slots rule.path, event.at? s.1 = some s.2 :=
    fun s hs => (mem_slots.mp hs).2
  have hp := pairwise_slots event rule.path
  rw [← List.take_append_drop k (event.slots rule.path), List.pairwise_append] at hp
  obtain ⟨-, -, hp2⟩ := hp
  conv =>
    lhs
    rw [← List.take_append_drop k (event.slots rule.path), List.map_append]
  congr 1
  · refine List.map_congr_left fun s hs => ?_
    have hm : (s.1, rule.redactor.outcome s.2) ∈ rule.edits limit event := by
      rw [hedits]
      exact List.mem_map_of_mem hs
    refine at?_replaceAll_of_mem (Rule.pairwise_edits limit rule event) hm ?_
    rw [hslot s (List.mem_of_mem_take hs)]
    rfl
  · refine List.map_congr_left fun s hs => ?_
    rw [Rule.effect, at?_replaceAll_of_apart, hslot s (List.mem_of_mem_drop hs)]
    intro e he
    rw [hedits] at he
    obtain ⟨s', hs', rfl⟩ := List.mem_map.mp he
    exact hp2 s' hs' s hs

/-! ### A list of rules -/

theorem scrub_cons (limit : Option Nat) (rule : Rule) (rules : List Rule) (event : Json)
    (t : Telemetry) :
    (⟨rule :: rules, limit⟩ : Scrubber).scrub event t =
      let r := applyRule limit rule event t
      (⟨rules, limit⟩ : Scrubber).scrub r.1 r.2 := rfl

theorem scrub_append (limit : Option Nat) (rules rules' : List Rule) (event : Json)
    (t : Telemetry) :
    (⟨rules ++ rules', limit⟩ : Scrubber).scrub event t =
      let r := (⟨rules, limit⟩ : Scrubber).scrub event t
      (⟨rules', limit⟩ : Scrubber).scrub r.1 r.2 :=
  List.foldl_append

/-- The event that leaves a scrubber, rule by rule. -/
theorem scrub_fst (s : Scrubber) (event : Json) (t : Telemetry) :
    (s.scrub event t).1 = s.rules.foldl (Rule.effect s.maxTargets) event := by
  obtain ⟨rules, limit⟩ := s
  induction rules generalizing event t with
  | nil => rfl
  | cons rule rules ih =>
    rw [List.foldl_cons, ← applyRule_fst limit rule event t]
    exact ih _ _

/-- What each rule keeps, all of them keep. -/
theorem foldl_effect_keeps {P : Json → Prop} {rules : List Rule}
    (h : ∀ r ∈ rules, ∀ e, P e → P (r.effect limit e)) (he : P event) :
    P (rules.foldl (Rule.effect limit) event) :=
  List.foldlRecOn rules (Rule.effect limit) he fun e hP r hr => h r hr e hP

/-- What each rule brings about, and the rules after it keep, holds after all of them. -/
theorem foldl_effect_establishes {P : Rule → Json → Prop} {rules : List Rule}
    (h : ∀ r ∈ rules, ∀ e, P r (r.effect limit e))
    (hkeep : rules.Pairwise fun r r' => ∀ e, P r e → P r (r'.effect limit e)) (event : Json) :
    ∀ r ∈ rules, P r (rules.foldl (Rule.effect limit) event) := by
  induction rules generalizing event with
  | nil => exact fun r hr => by cases hr
  | cons rule rules ih =>
    obtain ⟨hrule, hrules⟩ := List.pairwise_cons.mp hkeep
    intro r hr
    rw [List.foldl_cons]
    rcases List.mem_cons.mp hr with rfl | hr
    · exact foldl_effect_keeps hrule (h r List.mem_cons_self event)
    · exact ih (fun r' hr' => h r' (List.mem_cons_of_mem rule hr')) hrules _ r hr

/-- The event that leaves a scrubber and the failures it counts, rule by rule. -/
theorem scrub_eq_foldl_step (s : Scrubber) (event : Json) (t : Telemetry) :
    ((s.scrub event t).1, (s.scrub event t).2.failures) =
      s.rules.foldl (Rule.step s.maxTargets) (event, t.failures) := by
  obtain ⟨rules, limit⟩ := s
  induction rules generalizing event t with
  | nil => rfl
  | cons rule rules ih =>
    rw [List.foldl_cons, Rule.step, ← failures_applyRule, ← applyRule_fst limit rule event t]
    exact ih _ _

/-- **The exact meaning of one rule among others.** Its slots are the values under the final key of
the targets that come one after another when its turn is. Those within its reach hold the
replacement or the marker afterwards, the others what they held, and nothing else is changed; the
failures within its reach are counted, and one more if it gave up. The next rule starts from
there. -/
theorem scrub_between (limit : Option Nat) (before after : List Rule) (rule : Rule) (event : Json)
    (t : Telemetry) :
    let start := (⟨before, limit⟩ : Scrubber).scrub event t
    let finish := (⟨before ++ [rule], limit⟩ : Scrubber).scrub event t
    let key := rule.path.finalKey?.getD ""
    let targets := (Targets.of start.1 rule.path).toList
    let slots := start.1.slots rule.path
    let k := slots.zipIdx.findIdx fun (s, i) => rule.givesUpAt limit s.2 i
    slots.map (fun s => (start.1.at? s.1.dropLast, s.1.getLast?, some s.2)) =
      targets.map (fun ms => (some (object ms), some (Step.member key), Members.get? key ms)) ∧
    slots.Pairwise (fun a b => Apart a.1 b.1) ∧
    finish.1 = start.1.replaceAll ((slots.take k).map fun s => (s.1, rule.redactor.outcome s.2)) ∧
    slots.map (fun s => finish.1.at? s.1) =
      (slots.take k).map (fun s => some (rule.redactor.outcome s.2)) ++
        (slots.drop k).map (fun s => some s.2) ∧
    finish.2.failures =
      ⟨start.2.failures.redactorErrors +
          (slots.take k).countP (fun s => rule.redactor.failsOn s.2),
        start.2.failures.traversalErrors + if k < targets.length then 1 else 0⟩ ∧
    (⟨before ++ rule :: after, limit⟩ : Scrubber).scrub event t =
      (⟨after, limit⟩ : Scrubber).scrub finish.1 finish.2 := by
  intro start finish key targets slots k
  have hk : rule.reach limit start.1 = k := by
    show ((slots.map Prod.snd).zipIdx 0).findIdx _ = _
    rw [List.zipIdx_map, List.findIdx_map]
    rfl
  have hlen : targets.length = slots.length := by
    have h := congrArg List.length (map_slots_toList start.1 rule.path)
    rw [List.length_map, List.length_map] at h
    exact h.symm
  have hfinish : finish = applyRule limit rule start.1 start.2 :=
    scrub_append limit before [rule] event t
  have hevent : finish.1 = rule.effect limit start.1 := by rw [hfinish, applyRule_fst]
  have hedits : rule.edits limit start.1 =
      (slots.take k).map fun s => (s.1, rule.redactor.outcome s.2) := by rw [Rule.edits, hk]
  refine ⟨map_slots_toList _ _, pairwise_slots _ _, ?_, ?_, ?_, ?_⟩
  · rw [hevent, Rule.effect, hedits]
  · rw [hevent, ← hk]
    exact map_at?_slots limit rule start.1
  · rw [hfinish, failures_applyRule, Rule.tally, hk, Rule.values, ← List.map_take, List.countP_map,
      List.length_map, hlen]
    rfl
  · rw [List.append_cons, scrub_append]

/-- The first target is masked, the second fails, and the third is beyond the limit. The redactor of
the last rule fails too, and its name cannot be asked for. -/
theorem scrub_between_limited :
    let hides : Rule := ⟨none, .parse "b", .scrub⟩
    let masks : Rule := ⟨none, .parse "a.[].c", .cookies .all⟩
    let fails : Rule := ⟨none, .parse "b", ⟨.error ⟨none⟩, fun _ => .panic ⟨none⟩⟩⟩
    let event : Json := .object [("a", .array [.object [("c", .string "id=1")],
      .object [("c", .string "alpha"), ("d", .null)],
      .object [("c", .string "x=1")]]), ("b", .null)]
    let left : Json := .object [("a", .array [.object [("c", .string "id=[Scrubbed]")],
      .object [("c", .string "ERROR WHEN SCRUBBING"), ("d", .null)],
      .object [("c", .string "x=1")]]), ("b", .string "[Scrubbed]")]
    let finish := (⟨[hides, masks], some 2⟩ : Scrubber).scrub event .empty
    let finish' := (⟨[hides, masks, fails], some 2⟩ : Scrubber).scrub event .empty
    finish.1 = left ∧ finish.2.failures = ⟨1, 1⟩ ∧
      finish'.1 = left ∧ finish'.2.failures = ⟨1, 2⟩ := by
  intro hides masks fails event left finish finish'
  obtain ⟨-, -, hevent, -, hfailures, -⟩ :=
    scrub_between (some 2) [hides] [fails] masks event .empty
  obtain ⟨-, -, hevent', -, hfailures', -⟩ :=
    scrub_between (some 2) [hides, masks] [] fails event .empty
  refine ⟨hevent, hfailures.trans ?_, hevent', hfailures'.trans ?_⟩
  · decide +kernel
  · decide +kernel

end Scrubber

end Redaction
