import Redaction.Proofs.Rules.Combining
import Redaction.Proofs.Scrubbing.Accounting

/-!
# Merged rules are applied one file after the other

Rules that were appended are applied to what the rules before them leave, and report what they
would report on their own (`Scrubber.scrub_append_eq`). Disabling goes through a merge, so the
scrubber of a merged and narrowed configuration is those of its two parts, one after the other
(`Config.scrub_merge_disable`).
-/

namespace Redaction

namespace Scrubber

variable {limit : Option Nat} {rules rules' : List Rule}

/-- What leaves a scrubber does not depend on what has been counted and written before. -/
theorem scrub_fst_eq (s : Scrubber) (event : Json) (t t' : Telemetry) :
    (s.scrub event t).1 = (s.scrub event t').1 := by
  rw [scrub_fst, scrub_fst]

/-- **Two lists of rules, one after the other.** With whatever telemetry each of them runs, the
event is that of both, and so are the failures counted and the records written. -/
theorem scrub_append_eq (limit : Option Nat) (rules rules' : List Rule) (event : Json)
    (t t₁ t₂ : Telemetry) :
    let both := (⟨rules ++ rules', limit⟩ : Scrubber).scrub event t
    let one := (⟨rules, limit⟩ : Scrubber).scrub event t₁
    let two := (⟨rules', limit⟩ : Scrubber).scrub one.1 t₂
    both.1 = two.1 ∧ ∃ records records', t₁.Grows records one.2 ∧ t₂.Grows records' two.2 ∧
      t.Grows (records ++ records') both.2 := by
  intro both one two
  let one' := (⟨rules, limit⟩ : Scrubber).scrub event t
  have hone : one'.1 = one.1 := scrub_fst_eq _ event t t₁
  have hboth : both = (⟨rules', limit⟩ : Scrubber).scrub one.1 one'.2 := by
    rw [← hone]
    exact scrub_append limit rules rules' event t
  refine ⟨?_, _, _, grows_scrub _ event t₁, grows_scrub _ one.1 t₂, ?_⟩
  · rw [hboth]
    exact scrub_fst_eq _ one.1 one'.2 t₂
  · have hgrows : t.Grows (reports limit rules event) one'.2 :=
      grows_scrub ⟨rules, limit⟩ event t
    rw [hboth]
    exact hgrows.trans (grows_scrub _ one.1 one'.2)

end Scrubber

namespace Config

/-- The rules of a configuration under another limit. -/
def withLimit (c : Config) (limit : Option Nat) : Config := { c with maxTargets := limit }

/-- **Merging and disabling mean scrubbing in sequence.** The scrubber of a merged configuration
without the rules that are named makes of every event what the scrubber of the first part without
them makes, and then that of the second, both under the merged limit; the failures counted and the
records written are those of the first part and then those of the second. What is disabled depends
on which names are given and on nothing else, a rule without a name is left where it is, and names
may be disabled before merging or after it. -/
theorem scrub_merge_disable (base user : Config) (hbase : ∃ s, base.compile = .ok s)
    (huser : ∃ s, user.compile = .ok s) (names : List String) :
    (let limit := user.maxTargets.or base.maxTargets
      ∃ s first second, ((base.merge (some user)).disable names).compile = .ok s ∧
        ((base.disable names).withLimit limit).compile = .ok first ∧
        ((user.disable names).withLimit limit).compile = .ok second ∧
        ∀ event t t₁ t₂,
          let both := s.scrub event t
          let one := first.scrub event t₁
          let two := second.scrub one.1 t₂
          both.1 = two.1 ∧ ∃ (f f' : Failures) (records records' : List Record),
            (one.2.failures = t₁.failures + f ∧
              one.2.records.toList = t₁.records.toList ++ records) ∧
            (two.2.failures = t₂.failures + f' ∧
              two.2.records.toList = t₂.records.toList ++ records') ∧
            both.2.failures = t.failures + (f + f') ∧
            both.2.records.toList = t.records.toList ++ (records ++ records')) ∧
    (∀ c : Config, (c.disable names).rules =
        c.rules.filter (fun r => ∀ name ∈ names, r.name? ≠ some name) ∧
      (c.disable names).rules.filter (·.name?.isNone) = c.rules.filter (·.name?.isNone) ∧
      ∀ names', (∀ name, name ∈ names ↔ name ∈ names') → c.disable names = c.disable names') ∧
    ∀ (c : Config) (c' : Option Config), (c.merge c').disable names =
      (c.disable names).merge (c'.map fun u => u.disable names) := by
  refine ⟨?_,
    fun c => ⟨c.rules_disable names, c.filter_rules_disable names, fun _ => disable_congr⟩,
    fun c c' => disable_merge c c' names⟩
  intro limit
  obtain ⟨s, hs⟩ := hbase
  obtain ⟨s', hs'⟩ := huser
  have hfirst : (base.disable names).Compiles := (compiles_of_compile hs).disable names
  have hsecond : (user.disable names).Compiles := (compiles_of_compile hs').disable names
  have hmerged : ((base.merge (some user)).disable names).compile =
      .ok ⟨(base.disable names).rules.map RuleSpec.rule ++ (user.disable names).rules.map
        RuleSpec.rule, limit⟩ := by
    have hboth : ((base.disable names).merge (some (user.disable names))).Compiles :=
      hfirst.merge fun u hu => Option.some.inj hu ▸ hsecond
    rw [disable_merge, Option.map_some, compile_of_compiles hboth, ← List.map_append]
    exact congrArg (fun l => Except.ok (Scrubber.mk _ l)) (Option.or_eq_orElse ..).symm
  refine ⟨_, _, _, hmerged, compile_of_compiles (c := (base.disable names).withLimit limit) hfirst,
    compile_of_compiles (c := (user.disable names).withLimit limit) hsecond, ?_⟩
  intro event t t₁ t₂
  obtain ⟨hevent, records, records', hone, htwo, hboth⟩ := Scrubber.scrub_append_eq limit
    ((base.disable names).rules.map RuleSpec.rule) ((user.disable names).rules.map RuleSpec.rule)
    event t t₁ t₂
  refine ⟨hevent, Record.failures records, Record.failures records', records, records',
    ⟨hone.failures_eq, hone.records_eq⟩, ⟨htwo.failures_eq, htwo.records_eq⟩, ?_, hboth.records_eq⟩
  rw [hboth.failures_eq, Record.failures_append]

/-- One rule of each part is disabled, and the last rule that is left fails. -/
theorem scrub_merge_disable_failing :
    let user : Config := ⟨[⟨some "t", none, "token", .scrub, [], false⟩,
      ⟨some "c", none, "cookies", .scrubCookies, [], true⟩], some 1⟩
    let names := ["frame_vars_username", "t", "t"]
    let event : Json := .object [("cookies", .string "sid"), ("token", .string "x")]
    (∃ s, Config.builtin.compile = .ok s) ∧ (∃ s, user.compile = .ok s) ∧
      ∃ s, ((Config.builtin.merge (some user)).disable names).compile = .ok s ∧
        (s.scrub event .empty).1 =
          .object [("cookies", .string "ERROR WHEN SCRUBBING"), ("token", .string "x")] ∧
        (s.scrub event .empty).2.failures = ⟨1, 0⟩ := by
  intro user names event
  have hbuiltin : ∃ s, Config.builtin.compile = .ok s := ⟨_, compile_of_compiles compiles_builtin⟩
  have huser : ∃ s, user.compile = .ok s := ⟨_, rfl⟩
  obtain ⟨⟨s, first, second, hs, hfirst, hsecond, hrun⟩, -, -⟩ :=
    scrub_merge_disable .builtin user hbuiltin huser names
  obtain ⟨hevent, f, f', records, records', ⟨hf, -⟩, ⟨hf', -⟩, hboth, -⟩ :=
    hrun event .empty .empty .empty
  obtain rfl := compile_eq_ok hfirst
  obtain rfl := compile_eq_ok hsecond
  have hnone : f = ⟨0, 0⟩ :=
    (Failures.since_add .zero f).symm.trans (congrArg (Failures.since · .zero) hf.symm)
  have hone : f' = ⟨1, 0⟩ :=
    (Failures.since_add .zero f').symm.trans (congrArg (Failures.since · .zero) hf'.symm)
  refine ⟨hbuiltin, huser, s, hs, hevent.trans rfl, ?_⟩
  rw [hboth, hnone, hone]
  rfl

end Config

end Redaction
