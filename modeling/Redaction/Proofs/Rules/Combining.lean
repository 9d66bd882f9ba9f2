import Redaction.Proofs.Rules.Validation

/-!
# Configurations made of others

Configurations may be merged and narrowed in any order and any number of times (`Assembly`). What
comes out has the rules of the parts in their order, each part without the names disabled above it
(`Assembly.rules_config`), and the last limit that is set in a part (`Assembly.maxTargets_config`).
So parts that pass validation make a configuration that compiles, though it is never validated
(`Assembly.compile_config`).
-/

namespace Redaction

/-! ### What disabling leaves -/

theorem RuleSpec.isNamed_iff {r : RuleSpec} {names : List String} :
    r.isNamed names = true ↔ ∃ name ∈ names, r.name? = some name := by
  unfold isNamed
  cases r.name? with
  | none => simp
  | some name => simp

namespace Config

variable {c : Config} {names names' : List String}

/-- The rules that are left are those without a name and those with another one. -/
theorem rules_disable (c : Config) (names : List String) :
    (c.disable names).rules = c.rules.filter fun r => ∀ name ∈ names, r.name? ≠ some name := by
  refine List.filter_congr fun r _ => ?_
  have hnamed : r.isNamed names = true ↔ ∃ name ∈ names, r.name? = some name := RuleSpec.isNamed_iff
  rw [Bool.eq_iff_iff, Bool.not_eq_true', ← Bool.not_eq_true, hnamed, decide_eq_true_iff]
  simp

/-- A rule without a name is left, wherever it stands. -/
theorem filter_rules_disable (c : Config) (names : List String) :
    (c.disable names).rules.filter (·.name?.isNone) = c.rules.filter (·.name?.isNone) := by
  rw [rules_disable, List.filter_filter]
  refine List.filter_congr fun r _ => ?_
  cases h : r.name? with
  | none => simp
  | some name => simp

/-- What is left after disabling depends on which names are given, not on how. -/
theorem disable_congr (h : ∀ name, name ∈ names ↔ name ∈ names') :
    c.disable names = c.disable names' := by
  have hrules : (c.disable names).rules = (c.disable names').rules := by
    rw [rules_disable, rules_disable]
    refine List.filter_congr fun r _ => ?_
    simp only [h]
  exact congrArg (fun rules => Config.mk rules c.maxTargets) hrules

/-- Names may be disabled before merging or after it. -/
theorem disable_merge (base : Config) (user : Option Config) (names : List String) :
    (base.merge user).disable names =
      (base.disable names).merge (user.map fun u => u.disable names) := by
  cases user with
  | none => rfl
  | some u =>
    have hrules : ((base.merge (some u)).disable names).rules =
        (base.disable names).rules ++ (u.disable names).rules := List.filter_append ..
    exact congrArg (fun rules => Config.mk rules (base.merge (some u)).maxTargets) hrules

end Config

/-! ### Any number of files -/

/-- A way to make a configuration of others. -/
inductive Assembly
  | file (c : Config)
  /-- Merged with no configuration of a user. -/
  | alone (base : Assembly)
  | merge (base user : Assembly)
  | disable (a : Assembly) (names : List String)

namespace Assembly

/-- The configuration that comes out. -/
def config : Assembly → Config
  | file c => c
  | alone base => base.config.merge none
  | merge base user => base.config.merge (some user.config)
  | disable a names => a.config.disable names

/-- The configurations that go in, in their order, each with the names that are disabled in it. -/
def parts : Assembly → List (Config × List String)
  | file c => [(c, [])]
  | alone base => base.parts
  | merge base user => base.parts ++ user.parts
  | disable a names => a.parts.map fun p => (p.1, p.2 ++ names)

/-- **The rules are those of the parts, without the disabled ones.** -/
theorem rules_config (a : Assembly) : a.config.rules =
    a.parts.flatMap fun p => p.1.rules.filter fun r => ∀ name ∈ p.2, r.name? ≠ some name := by
  induction a with
  | file c => simp [config, parts]
  | alone base ih => exact ih
  | merge base user ihb ihu =>
    rw [parts, List.flatMap_append, ← ihb, ← ihu]
    rfl
  | disable a names ih =>
    rw [config, Config.rules_disable, ih, parts, List.filter_flatMap, List.flatMap_map]
    refine List.flatMap_congr fun p _ => ?_
    rw [List.filter_filter]
    refine List.filter_congr fun r _ => ?_
    simp only [List.mem_append, or_imp, forall_and, Bool.decide_and, Bool.and_comm]

/-- **The limit is the last one that is set.** -/
theorem maxTargets_config (a : Assembly) :
    a.config.maxTargets = (a.parts.filterMap fun p => p.1.maxTargets).getLast? := by
  induction a with
  | file c =>
    rw [parts, List.filterMap_cons, List.filterMap_nil]
    cases h : c.maxTargets <;> exact h
  | alone base ih => exact ih
  | merge base user ihb ihu =>
    rw [parts, List.filterMap_append, List.getLast?_append, ← ihb, ← ihu]
    exact (Option.or_eq_orElse ..).symm
  | disable a names ih =>
    rw [parts, List.filterMap_map]
    exact ih

/-- **Whatever passes validation compiles, also merged and narrowed.** -/
theorem compile_config (a : Assembly) (h : ∀ p ∈ a.parts, p.1.validate = .ok p.1) :
    ∃ s, a.config.compile = .ok s ∧
      a.config.rules = a.parts.flatMap (fun p =>
        p.1.rules.filter fun r => ∀ name ∈ p.2, r.name? ≠ some name) ∧
      List.Forall₂ RuleSpec.Specifies a.config.rules s.rules ∧
      s.maxTargets = (a.parts.filterMap fun p => p.1.maxTargets).getLast? ∧
      s.maxTargets ≠ some 0 := by
  have hproblems : ∀ p ∈ a.parts, p.1.problems = [] := fun p hp =>
    (Config.validate_eq_ok (h p hp)).2
  have hcompiles : a.config.Compiles := by
    intro r hr
    rw [rules_config] at hr
    obtain ⟨p, hp, hr⟩ := List.mem_flatMap.mp hr
    exact Config.compiles_of_problems (hproblems p hp) r (List.mem_of_mem_filter hr)
  have hs := Config.compile_of_compiles hcompiles
  refine ⟨_, hs, a.rules_config, Config.specifies_of_compile hs, a.maxTargets_config, ?_⟩
  intro hzero
  rw [maxTargets_config] at hzero
  obtain ⟨p, hp, hlimit⟩ := List.mem_filterMap.mp (List.mem_of_getLast? hzero)
  exact Config.maxTargets_ne_zero (hproblems p hp) hlimit

/-- The built-in rules and those of two files, without some of each. -/
theorem compile_config_files :
    let password : RuleSpec := Config.builtin.rules[1]
    let cookies : RuleSpec := ⟨some "c", none, "request.cookies", .scrubCookies, ["sid"], false⟩
    let query : RuleSpec := ⟨some "q", none, "request.query", .scrubQueryString, [], true⟩
    let token : RuleSpec := ⟨none, none, "[].token", .scrub, [], false⟩
    let a : Assembly := .disable
      (.merge (.disable (.alone (.file .builtin)) ["frame_vars_username"])
        (.merge (.file ⟨[cookies, query], some 5⟩) (.file ⟨[token], none⟩))) ["q", "x"]
    (∀ p ∈ a.parts, p.1.validate = .ok p.1) ∧ ∃ s, a.config.compile = .ok s ∧
      List.Forall₂ RuleSpec.Specifies [password, cookies, token] s.rules ∧
      s.maxTargets = some 5 := by
  intro password cookies query token a
  have hbuiltin : Config.builtin.validate = .ok .builtin :=
    Config.validate_eq_ok_iff.mpr Config.problems_builtin
  have hfirst : Config.validate ⟨[cookies, query], some 5⟩ = .ok ⟨[cookies, query], some 5⟩ := by
    decide +kernel
  have hsecond : Config.validate ⟨[token], none⟩ = .ok ⟨[token], none⟩ := by decide +kernel
  have hvalid : ∀ p ∈ a.parts, p.1.validate = .ok p.1 :=
    List.forall_mem_cons.mpr
      ⟨hbuiltin, List.forall_mem_cons.mpr ⟨hfirst, List.forall_mem_singleton.mpr hsecond⟩⟩
  obtain ⟨s, hs, -, hrules, hlimit, -⟩ := compile_config a hvalid
  exact ⟨hvalid, s, hs, hrules, hlimit⟩

end Assembly

end Redaction
