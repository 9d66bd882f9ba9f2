import Mathlib.Data.List.Forall2
import Redaction.Proofs.Scrubbing.OneRule

/-!
# Every failure is counted and recorded once

What a rule reports about an event is a list of records: one for each redactor call that fails and
has a name, then one for the end of the rule. In the log each of them is an entry that names the
path of the rule. The telemetry grows by the records, and by the failures that they report, with
every step: with one value (`grows_note`), with one rule (`grows_applyRule`), with a scrubber
(`grows_scrub`), and with calls of any scrubbers that share the telemetry (`after_append`).
-/

namespace Redaction

open Json

/-! ### What records report -/

namespace Record

/-- The record reports that a redactor failed. -/
def isRedactorFailure : Record → Bool
  | redactorFailed _ _ _ => true
  | _ => false

/-- The record reports that a rule was given up. -/
def isWalkFailure : Record → Bool
  | walkFailed _ _ => true
  | _ => false

/-- The failures that records report. -/
def failures (records : List Record) : Failures :=
  ⟨records.countP isRedactorFailure, records.countP isWalkFailure⟩

theorem failures_append (a b : List Record) : failures (a ++ b) = failures a + failures b := by
  unfold failures
  rw [List.countP_append, List.countP_append]
  rfl

end Record

/-! ### Records in the log -/

/-- The text of the entry begins with this one. -/
def Log.Entry.begins (e : Log.Entry) (opening : String) : Bool :=
  opening.toList.isPrefixOf e.text.toList

namespace Record

theorem toEntry_redactorFailed (name : String) (path : KeyPath) (e : RedactError) :
    (redactorFailed name path e).toEntry = ⟨.error, .scrubber,
      s!"SCRUBBER_ERROR: Error in redactor '{name}' at '{path.display}': {e.message} " ++
        "(metric: redactor_error)"⟩ := rfl

theorem toEntry_touched (path : KeyPath) (count : Nat) : (touched path count).toEntry =
    ⟨.debug, .scrubber, s!"Rule '{path.display}' touched {count} container(s)."⟩ := rfl

theorem toEntry_walkFailed (path : KeyPath) (e : TraversalError) : (walkFailed path e).toEntry =
    ⟨.error, .scrubber,
      s!"SCRUBBER_ERROR: Error walking '{path.display}': {e.message} (metric: traversal_error)"⟩ :=
  rfl

/-- How an entry begins tells what it reports. -/
theorem begins_toEntry (r : Record) :
    r.toEntry.begins "SCRUBBER_ERROR: Error in redactor '" = r.isRedactorFailure ∧
      r.toEntry.begins "SCRUBBER_ERROR: Error walking '" = r.isWalkFailure := by
  cases r with
  | redactorFailed name path e =>
    rw [toEntry_redactorFailed]
    simp only [Log.Entry.begins, String.toList_append, List.append_assoc]
    exact ⟨List.isPrefixOf_iff_prefix.mpr (List.prefix_append _ _), rfl⟩
  | touched path count =>
    rw [toEntry_touched]
    simp only [Log.Entry.begins, String.toList_append, List.append_assoc]
    exact ⟨rfl, rfl⟩
  | walkFailed path e =>
    rw [toEntry_walkFailed]
    simp only [Log.Entry.begins, String.toList_append, List.append_assoc]
    exact ⟨rfl, List.isPrefixOf_iff_prefix.mpr (List.prefix_append _ _)⟩

theorem failures_eq_countP_begins (records : List Record) :
    let entries := records.map toEntry
    failures records = ⟨entries.countP (·.begins "SCRUBBER_ERROR: Error in redactor '"),
      entries.countP (·.begins "SCRUBBER_ERROR: Error walking '")⟩ := by
  intro entries
  have hredactor : entries.countP (·.begins "SCRUBBER_ERROR: Error in redactor '") =
      records.countP isRedactorFailure := by
    rw [List.countP_map]
    exact congrArg (List.countP · records) (funext fun r => r.begins_toEntry.1)
  have hwalk : entries.countP (·.begins "SCRUBBER_ERROR: Error walking '") =
      records.countP isWalkFailure := by
    rw [List.countP_map]
    exact congrArg (List.countP · records) (funext fun r => r.begins_toEntry.2)
  rw [hredactor, hwalk]
  rfl

end Record

namespace Failures

theorem add_assoc (f g h : Failures) : f + g + h = f + (g + h) := by
  show Failures.mk (f.redactorErrors + g.redactorErrors + h.redactorErrors)
    (f.traversalErrors + g.traversalErrors + h.traversalErrors) = _
  rw [Nat.add_assoc, Nat.add_assoc]
  rfl

theorem since_add (f g : Failures) : (f + g).since f = g := by
  show Failures.mk (f.redactorErrors + g.redactorErrors - f.redactorErrors)
    (f.traversalErrors + g.traversalErrors - f.traversalErrors) = _
  rw [Nat.add_sub_cancel_left, Nat.add_sub_cancel_left]

end Failures

namespace Telemetry

/-- The second telemetry comes from the first by writing these records and counting the failures
that they report. -/
structure Grows (t : Telemetry) (records : List Record) (t' : Telemetry) : Prop where
  records_eq : t'.records.toList = t.records.toList ++ records
  failures_eq : t'.failures = t.failures + Record.failures records

variable {t t' t'' : Telemetry} {records records' : List Record}

theorem Grows.refl (t : Telemetry) : Grows t [] t := ⟨(List.append_nil _).symm, rfl⟩

theorem Grows.trans (h : Grows t records t') (h' : Grows t' records' t'') :
    Grows t (records ++ records') t'' where
  records_eq := by rw [h'.records_eq, h.records_eq, List.append_assoc]
  failures_eq := by
    rw [h'.failures_eq, h.failures_eq, Record.failures_append, Failures.add_assoc]

theorem grows_redactorFailed (t : Telemetry) (name : String) (path : KeyPath) (e : RedactError) :
    Grows t [.redactorFailed name path e] (t.redactorFailed name path e) :=
  ⟨Array.toList_push, rfl⟩

theorem grows_walkFailed (t : Telemetry) (path : KeyPath) (e : TraversalError) :
    Grows t [.walkFailed path e] (t.walkFailed path e) :=
  ⟨Array.toList_push, rfl⟩

theorem grows_touched (t : Telemetry) (path : KeyPath) (n : Nat) :
    Grows t [.touched path n] (t.touched path n) :=
  ⟨Array.toList_push, rfl⟩

end Telemetry

/-! ### What a rule reports -/

namespace Rule

/-- The record of a redactor call: there is one if it fails and the redactor has a name. -/
def failureRecord? (rule : Rule) (v : Json) : Option Record :=
  match rule.redactor.answer v, rule.redactor.name with
  | .error e, .ok name => some (.redactorFailed name rule.path e)
  | _, _ => none

/-- The record that ends a rule with `count` targets, which hold these values. It says why the rule
gave up at the target with index `reach`, or how many targets there were if it did not. -/
def closing (limit : Option Nat) (rule : Rule) (count : Nat) (values : List Json) (reach : Nat) :
    Record :=
  match values[reach]?.bind fun v => rule.obstacle? limit v reach with
  | some e => .walkFailed rule.path e
  | none => .touched rule.path count

/-- What a rule reports about an event. The values under the final key of its targets are redacted
in order, up to the first where the rule gives up. -/
def report (limit : Option Nat) (rule : Rule) (event : Json) : List Record :=
  let targets := (Targets.of event rule.path).toList
  let values := targets.filterMap (Members.get? (rule.path.finalKey?.getD ""))
  let reach := rule.reachFrom limit 0 values
  (values.take reach).filterMap rule.failureRecord? ++
    [rule.closing limit targets.length values reach]

variable {limit : Option Nat} {rule : Rule}

theorem isSome_failureRecord? (rule : Rule) (v : Json) :
    (rule.failureRecord? v).isSome = (rule.redactor.failsOn v && rule.redactor.hasName) := by
  unfold failureRecord?
  cases hf : rule.redactor.failsOn v with
  | false =>
    rw [Redactor.answer_of_not_failsOn hf]
    rfl
  | true =>
    obtain ⟨⟨e, he⟩, -⟩ := Redactor.answer_of_failsOn hf
    rw [he, Redactor.hasName]
    cases rule.redactor.name <;> rfl

theorem failureRecord?_eq_some {v : Json} {r : Record} (h : rule.failureRecord? v = some r) :
    ∃ e name, rule.redactor.answer v = .error e ∧ rule.redactor.name = .ok name ∧
      r = .redactorFailed name rule.path e := by
  unfold failureRecord? at h
  cases ha : rule.redactor.answer v with
  | ok w =>
    rw [ha] at h
    cases h
  | error e =>
    cases hn : rule.redactor.name with
    | ok name =>
      rw [ha, hn] at h
      exact ⟨e, name, rfl, rfl, (Option.some.inj h).symm⟩
    | error p =>
      rw [ha, hn] at h
      cases h

/-- Up to where the rule gives up, each redactor call that fails has its record, in order. -/
theorem forall₂_failureRecord? (limit : Option Nat) (rule : Rule) (i : Nat) (values : List Json) :
    let redacted := values.take (rule.reachFrom limit i values)
    List.Forall₂ (fun v r => rule.failureRecord? v = some r)
      (redacted.filter rule.redactor.failsOn) (redacted.filterMap rule.failureRecord?) := by
  intro redacted
  have heq : (redacted.filter rule.redactor.failsOn).map rule.failureRecord? =
      (redacted.filterMap rule.failureRecord?).map some := by
    rw [List.map_filterMap_some_eq_filter_map_isSome, List.filter_map]
    refine congrArg (List.map _) (List.filter_congr fun v hv => ?_)
    rw [Function.comp_apply, isSome_failureRecord?]
    cases hf : rule.redactor.failsOn v with
    | false => rfl
    | true => rw [hasName_of_mem_take hv hf, Bool.and_self]
  rw [← List.forall₂_eq_eq_eq, List.forall₂_map_left_iff, List.forall₂_map_right_iff] at heq
  exact heq

/-- A rule gives up because of the limit, or because a redactor has failed whose name cannot be
asked for. -/
theorem obstacle?_eq_some {v : Json} {i : Nat} {e : TraversalError}
    (h : rule.obstacle? limit v i = some e) :
    (limit = some i ∧ e = .targetLimitExceeded i) ∨
      ∃ p, rule.redactor.failsOn v = true ∧ rule.redactor.name = .error p ∧
        e = .panicked p.message := by
  unfold obstacle? at h
  split at h
  · next hl => exact Or.inl ⟨hl, (Option.some.inj h).symm⟩
  · cases hf : rule.redactor.failsOn v with
    | false =>
      rw [Redactor.answer_of_not_failsOn hf] at h
      cases h
    | true =>
      obtain ⟨⟨e', he'⟩, -⟩ := Redactor.answer_of_failsOn hf
      rw [he'] at h
      cases hn : rule.redactor.name with
      | ok name =>
        rw [hn] at h
        cases h
      | error p =>
        rw [hn] at h
        exact Or.inr ⟨p, rfl, rfl, (Option.some.inj h).symm⟩

theorem report_eq (limit : Option Nat) (rule : Rule) (event : Json) :
    rule.report limit event =
      ((rule.values event).take (rule.reach limit event)).filterMap rule.failureRecord? ++
        [rule.closing limit (rule.values event).length (rule.values event)
          (rule.reach limit event)] := by
  rw [report, ← Scrubber.values_eq_filterMap, ← Scrubber.length_values]
  rfl

theorem grows_note (rule : Rule) (t : Telemetry) (v : Json) :
    t.Grows (rule.failureRecord? v).toList (rule.note t v) := by
  unfold failureRecord? note
  cases rule.redactor.answer v with
  | ok w => exact .refl t
  | error e =>
    cases rule.redactor.name with
    | ok name => exact t.grows_redactorFailed name rule.path e
    | error p => exact .refl t

theorem grows_foldl_note (rule : Rule) (t : Telemetry) (vs : List Json) :
    t.Grows (vs.filterMap rule.failureRecord?) (vs.foldl rule.note t) := by
  induction vs generalizing t with
  | nil => exact .refl t
  | cons v vs ih =>
    have h := (rule.grows_note t v).trans (ih (rule.note t v))
    rw [List.filterMap_cons]
    cases hv : rule.failureRecord? v <;> rw [hv] at h <;> exact h

end Rule

namespace Scrubber

/-- One rule writes its report, and counts the failures in it. -/
theorem grows_applyRule (limit : Option Nat) (rule : Rule) (event : Json) (t : Telemetry) :
    t.Grows (rule.report limit event) (applyRule limit rule event t).2 := by
  rw [Rule.report_eq, Rule.closing]
  rcases applyRule_snd limit rule event t with ⟨hk, h⟩ | ⟨-, e, he, h⟩
  · rw [h, hk, List.take_length, List.getElem?_eq_none (Nat.le_refl _)]
    exact (rule.grows_foldl_note t _).trans (Telemetry.grows_touched _ _ _)
  · rw [h, he]
    exact (rule.grows_foldl_note t _).trans (Telemetry.grows_walkFailed _ _ _)

/-- A rule that does not give up says how many targets it touched, and one that does says why. -/
theorem closing_eq (limit : Option Nat) (rule : Rule) (event : Json) :
    let values := rule.values event
    let reach := rule.reach limit event
    let closing := rule.closing limit values.length values reach
    (reach = values.length ∧ closing = .touched rule.path values.length) ∨
    (reach < values.length ∧ ∃ e, closing = .walkFailed rule.path e ∧
      ((limit = some reach ∧ e = .targetLimitExceeded reach) ∨
        ∃ v p, values[reach]? = some v ∧ rule.redactor.failsOn v = true ∧
          rule.redactor.name = .error p ∧ e = .panicked p.message)) := by
  intro values reach closing
  rcases applyRule_snd limit rule event .empty with ⟨hk, -⟩ | ⟨hk, e, he, -⟩
  · refine Or.inl ⟨hk, ?_⟩
    have hnone : values[reach]? = none := List.getElem?_eq_none (Nat.le_of_eq hk.symm)
    show rule.closing limit values.length values reach = _
    rw [Rule.closing, hnone]
    rfl
  · refine Or.inr ⟨hk, e, ?_, ?_⟩
    · show rule.closing limit values.length values reach = _
      rw [Rule.closing, he]
    · obtain ⟨v, hv, hobstacle⟩ := Option.bind_eq_some_iff.mp he
      refine (Rule.obstacle?_eq_some hobstacle).imp id ?_
      rintro ⟨p, hp⟩
      exact ⟨v, p, hv, hp⟩

/-- What rules report, each about the event that the rules before it leave. -/
def reports (limit : Option Nat) : List Rule → Json → List Record
  | [], _ => []
  | rule :: rules, event =>
    rule.report limit event ++ reports limit rules (applyRule limit rule event .empty).1

/-- A scrubber writes the reports of its rules, and counts the failures in them. -/
theorem grows_scrub (s : Scrubber) (event : Json) (t : Telemetry) :
    t.Grows (reports s.maxTargets s.rules event) (s.scrub event t).2 := by
  obtain ⟨rules, limit⟩ := s
  induction rules generalizing event t with
  | nil => exact .refl t
  | cons rule rules ih =>
    -- what a rule makes of an event does not depend on the telemetry
    have hnext : (applyRule limit rule event .empty).1 = (applyRule limit rule event t).1 := by
      rw [applyRule_fst, applyRule_fst]
    rw [scrub_cons, reports]
    dsimp only
    rw [hnext]
    exact (grows_applyRule limit rule event t).trans (ih _ _)

end Scrubber

/-! ### Scrubbers that share their telemetry -/

/-- A call of a scrubber with an event. -/
structure Call where
  scrubber : Scrubber
  event : Json

/-- What a call reports, rule by rule. -/
def Call.report (call : Call) : List Record :=
  Scrubber.reports call.scrubber.maxTargets call.scrubber.rules call.event

namespace Telemetry

/-- The telemetry after calls that share it, one after another. -/
def after (t : Telemetry) (calls : List Call) : Telemetry :=
  calls.foldl (fun t call => (call.scrubber.scrub call.event t).2) t

theorem after_append (t : Telemetry) (before between : List Call) :
    t.after (before ++ between) = (t.after before).after between := List.foldl_append

theorem grows_after (t : Telemetry) (calls : List Call) :
    t.Grows (calls.flatMap Call.report) (t.after calls) := by
  induction calls generalizing t with
  | nil => exact .refl t
  | cons call calls ih =>
    rw [List.flatMap_cons]
    exact (call.scrubber.grows_scrub call.event t).trans (ih _)

/-- **Every failure is counted and recorded once.** A rule reports each redactor call that fails
before it gives up, in the order of its targets, with the name of the redactor and the error, and
then the number of its targets if it did not give up, or else why it did; each of these records
stands in the log with the path of the rule. Between any two points of a sequence of calls by
scrubbers that share their telemetry, the records are the reports of the calls between them, rule by
rule; the counters have grown by the numbers of entries on redactor failures and on walk failures
that were logged meanwhile, and neither has become smaller. -/
theorem since_after (t : Telemetry) (before between : List Call) :
    (∀ (limit : Option Nat) (rule : Rule) (event : Json),
      let targets := (Targets.of event rule.path).toList
      let values := targets.filterMap (Members.get? (rule.path.finalKey?.getD ""))
      let reach := rule.reachFrom limit 0 values
      let path := rule.path.display
      ∃ failures closing, rule.report limit event = failures ++ [closing] ∧
        List.Forall₂ (fun v r => ∃ e name, rule.redactor.answer v = .error e ∧
            rule.redactor.name = .ok name ∧ r = .redactorFailed name rule.path e ∧
            r.toEntry = ⟨.error, .scrubber,
              s!"SCRUBBER_ERROR: Error in redactor '{name}' at '{path}': {e.message} " ++
                "(metric: redactor_error)"⟩)
          ((values.take reach).filter rule.redactor.failsOn) failures ∧
        ((reach = targets.length ∧ closing = .touched rule.path targets.length ∧
          closing.toEntry = ⟨.debug, .scrubber,
            s!"Rule '{path}' touched {targets.length} container(s)."⟩) ∨
        (reach < targets.length ∧ ∃ e, closing = .walkFailed rule.path e ∧
          closing.toEntry = ⟨.error, .scrubber,
            s!"SCRUBBER_ERROR: Error walking '{path}': {e.message} (metric: traversal_error)"⟩ ∧
          ((limit = some reach ∧ e.message = s!"rule touched more than {reach} containers") ∨
            ∃ v p, values[reach]? = some v ∧ rule.redactor.failsOn v = true ∧
              rule.redactor.name = .error p ∧ e.message = s!"walk panicked: {p.message}")))) ∧
    let early := t.after before
    let late := t.after (before ++ between)
    let logged := (between.flatMap Call.report).map Record.toEntry
    late.records.toList = early.records.toList ++ between.flatMap Call.report ∧
      late.failures.since early.failures =
        ⟨logged.countP (·.begins "SCRUBBER_ERROR: Error in redactor '"),
          logged.countP (·.begins "SCRUBBER_ERROR: Error walking '")⟩ ∧
      early.failures.redactorErrors ≤ late.failures.redactorErrors ∧
      early.failures.traversalErrors ≤ late.failures.traversalErrors := by
  refine ⟨fun limit rule event => ?_, ?_⟩
  · dsimp only
    rw [← Scrubber.values_eq_filterMap, ← Scrubber.length_values]
    refine ⟨_, _, rule.report_eq limit event, ?_, ?_⟩
    · refine (rule.forall₂_failureRecord? limit 0 _).imp fun v r h => ?_
      obtain ⟨e, name, he, hname, rfl⟩ := Rule.failureRecord?_eq_some h
      exact ⟨e, name, he, hname, rfl, Record.toEntry_redactorFailed name rule.path e⟩
    · rcases Scrubber.closing_eq limit rule event with ⟨hreach, hclosing⟩ |
        ⟨hreach, e, hclosing, hreason⟩
      · rw [hclosing]
        exact Or.inl ⟨hreach, rfl, Record.toEntry_touched rule.path _⟩
      · rw [hclosing]
        refine Or.inr ⟨hreach, e, rfl, Record.toEntry_walkFailed rule.path e, ?_⟩
        rcases hreason with ⟨hlimit, rfl⟩ | ⟨v, p, hv, hf, hp, rfl⟩
        · exact Or.inl ⟨hlimit, rfl⟩
        · exact Or.inr ⟨v, p, hv, hf, hp, rfl⟩
  · intro early late logged
    have hgrows : early.Grows (between.flatMap Call.report) late := by
      show (t.after before).Grows _ (t.after (before ++ between))
      rw [after_append]
      exact grows_after _ between
    refine ⟨hgrows.records_eq, ?_, ?_, ?_⟩
    · rw [hgrows.failures_eq, Failures.since_add]
      exact Record.failures_eq_countP_begins _
    · rw [hgrows.failures_eq]
      exact Nat.le_add_right _ _
    · rw [hgrows.failures_eq]
      exact Nat.le_add_right _ _

/-- A header that cannot be masked before the limit is reached, a redactor that panics and has no
name, and one that panics without a message. -/
theorem since_after_panics :
    let nameless : Redactor := ⟨.error ⟨some "lost"⟩, fun _ => .panic ⟨none⟩⟩
    let fragile : Redactor := ⟨.ok "fragile", fun _ => .panic ⟨none⟩⟩
    let first : Call := ⟨⟨[⟨none, .parse "k", fragile⟩], none⟩, .object [("k", .null)]⟩
    let second : Call := ⟨⟨[⟨none, .parse "users.[].c", .cookies .all⟩,
        ⟨none, .parse "k", nameless⟩, ⟨none, .parse "k", .scrub⟩], some 2⟩,
      .object [("users", .array [.object [("c", .string "alpha")], .object [("c", .string "a=1")],
        .object [("c", .string "b=2")]]), ("k", .bool true)]⟩
    let early := empty.after [first]
    let late := empty.after ([first] ++ [second, first])
    late.records.toList.map Record.toEntry = early.records.toList.map Record.toEntry ++ [
      ⟨.error, .scrubber, "SCRUBBER_ERROR: Error in redactor 'scrub_cookies' at 'users.[].c': " ++
        "cookie segment 'alpha' has no '=' (metric: redactor_error)"⟩,
      ⟨.error, .scrubber, "SCRUBBER_ERROR: Error walking 'users.[].c': " ++
        "rule touched more than 2 containers (metric: traversal_error)"⟩,
      ⟨.error, .scrubber, "SCRUBBER_ERROR: Error walking 'k': " ++
        "walk panicked: lost (metric: traversal_error)"⟩,
      ⟨.debug, .scrubber, "Rule 'k' touched 1 container(s)."⟩,
      ⟨.error, .scrubber, "SCRUBBER_ERROR: Error in redactor 'fragile' at 'k': " ++
        "redactor panicked: non-string panic payload (metric: redactor_error)"⟩,
      ⟨.debug, .scrubber, "Rule 'k' touched 1 container(s)."⟩] ∧
    late.failures.since early.failures = ⟨2, 2⟩ := by
  intro nameless fragile first second early late
  obtain ⟨hrecords, hfailures, -⟩ := (since_after empty [first] [second, first]).2
  constructor
  · rw [hrecords, List.map_append]
    refine congrArg _ ?_
    decide +kernel
  · rw [hfailures]
    decide +kernel

end Telemetry

end Redaction
