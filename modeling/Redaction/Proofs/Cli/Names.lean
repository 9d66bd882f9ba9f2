import Redaction.Proofs.Cli.Loading
import Redaction.Proofs.Rules.Names

/-!
# Names to disable

Every file is validated by itself, and a merged configuration is not validated again. So a name may
be borne by a built-in rule and by one of the user's, and then it disables both
(`problems_merge_user`, `not_valid_merge_builtin`).
-/

namespace Redaction.Cli

/-- **What merging does to valid configurations.** The names that stand in both parts are all that
validation would find in a merged configuration; it is valid if and only if there are none. After
disabling, the names that are left are distinct if and only if every name that stands in both parts
is disabled, and a name takes away a rule of each part in which it stands. So it is with the rules
that a run loads: the built-in ones, unless they are not wanted, merged with the user's. -/
theorem problems_merge_user (base user : Config) (hbase : base.validate = .ok base)
    (huser : user.validate = .ok user) :
    let merged := base.merge (some user)
    merged.problems = (user.names.filter (· ∈ base.names)).map .duplicateName ∧
    (merged.validate = .ok merged ↔ ∀ name ∈ base.names, name ∉ user.names) ∧
    (∀ disabled, (merged.disable disabled).names.Nodup ↔
      ∀ name ∈ base.names, name ∈ user.names → name ∈ disabled) ∧
    (∀ disabled, ∀ name ∉ disabled, (merged.disable disabled).rules.length =
      (merged.disable (name :: disabled)).rules.length +
        ((if name ∈ base.names then 1 else 0) + if name ∈ user.names then 1 else 0)) ∧
    ∀ environment filter m source c m',
      ((session environment filter).loadRules source).run m = (.ok c, m') →
      let builtin : Config := if source.noDefaults then .empty else .builtin
      ∃ user?, m.files.userRules? environment source = .ok user? ∧
        c = (builtin.merge user?).disable source.disabled ∧
        (c.names.Nodup ↔ ∀ u ∈ user?, ∀ name ∈ builtin.names, name ∈ u.names →
          name ∈ source.disabled) := by
  rw [Config.validate_eq_ok_iff] at hbase huser
  intro merged
  have hproblems : merged.problems = (user.names.filter (· ∈ base.names)).map .duplicateName :=
    Config.problems_merge hbase huser
  refine ⟨hproblems, ?_, Config.nodup_names_merge_disable hbase huser,
    fun disabled name hname => ?_, ?_⟩
  · rw [Config.validate_eq_ok_iff, hproblems, List.map_eq_nil_iff, List.filter_eq_nil_iff]
    constructor
    · intro h name hb hu
      exact h name hu (decide_eq_true hb)
    · intro h name hu hb
      exact h name (of_decide_eq_true hb) hu
  · rw [Config.length_rules_disable_cons hname, Config.names_merge, List.count_append,
      (Config.nodup_names hbase).count, (Config.nodup_names huser).count]
  · intro environment filter m source c m' h builtin
    obtain ⟨user?, huser?, rfl⟩ := Files.exists_userRules_of_rules (rules_of_loadRules h)
    have hbuiltin : builtin.problems = [] := Files.problems_builtin source
    refine ⟨user?, huser?, rfl, ?_⟩
    cases user? with
    | none =>
      have hnodup : ((builtin.merge none).disable source.disabled).names.Nodup := by
        rw [Config.names_disable]
        exact (Config.nodup_names hbuiltin).filter _
      exact iff_of_true hnodup nofun
    | some u =>
      have hloaded := Config.nodup_names_merge_disable hbuiltin (Files.problems_userRules huser?)
        source.disabled
      refine hloaded.trans ⟨fun h u' hu' => ?_, fun h => h u rfl⟩
      obtain rfl := Option.some.inj hu'
      exact h

/-- A user's rule with the name of a built-in one, and one with a name of its own. A run that
disables neither loads two rules of one name. -/
theorem problems_merge_user_shared :
    let shared : RuleSpec := ⟨some "frame_vars_username", none, "user.name", .scrub, [], false⟩
    let own : RuleSpec := ⟨some "user_password", none, "user.password", .scrub, [], false⟩
    let user : Config := ⟨[shared, own], none⟩
    let merged := Config.builtin.merge (some user)
    let text := "rules:\n- {name: frame_vars_username, path: user.name}\n" ++
      "- {name: user_password, path: user.password}"
    let m := Machine.holding [("r.yaml", text)] ""
    let environment : Environment := ⟨none, none, none, false⟩
    let load := (session environment (Log.Filter.of none none).1).loadRules
      ⟨some "r.yaml", false, []⟩
    (Config.builtin.validate = .ok .builtin ∧ user.validate = .ok user) ∧
      merged.problems = [.duplicateName "frame_vars_username"] ∧
      (merged.disable ["frame_vars_username"]).names.Nodup ∧
      (merged.disable []).rules.length = (merged.disable ["frame_vars_username"]).rules.length + 2 ∧
      (merged.disable []).rules.length = (merged.disable ["user_password"]).rules.length + 1 ∧
      ∃ m', load.run m = (.ok merged, m') ∧ ¬ merged.names.Nodup := by
  intro shared own user merged text m environment load
  have hbuiltin : Config.builtin.validate = .ok .builtin :=
    Config.validate_eq_ok_iff.mpr Config.problems_builtin
  have huser : user.validate = .ok user := by decide +kernel
  obtain ⟨hproblems, -, hnodup, hlength, hloaded⟩ :=
    problems_merge_user .builtin user hbuiltin huser
  refine ⟨⟨hbuiltin, huser⟩, hproblems, ?_, hlength [] "frame_vars_username" (by decide),
    hlength [] "user_password" (by decide), ?_⟩
  · exact (hnodup ["frame_vars_username"]).mpr (by decide)
  · obtain ⟨errors, hload⟩ := yields_loadRules environment (Log.Filter.of none none).1 m
      ⟨some "r.yaml", false, []⟩ m.errors
    have hrules : m.files.rules environment ⟨some "r.yaml", false, []⟩ = .ok merged := by
      decide +kernel
    rw [hrules] at hload
    obtain ⟨user?, huser?, -, hdistinct⟩ := hloaded _ _ _ _ _ _ hload
    have hread : m.files.userRules? environment ⟨some "r.yaml", false, []⟩ = .ok (some user) := by
      decide +kernel
    obtain rfl := Except.ok.inj (hread.symm.trans huser?)
    refine ⟨_, hload, fun h => ?_⟩
    have hdisabled := hdistinct.mp h user rfl "frame_vars_username" (by decide) (by decide)
    cases hdisabled

/-- Two valid configurations make one that is not valid, in which one name disables two rules. -/
theorem not_valid_merge_builtin :
    let shared : RuleSpec := ⟨some "frame_vars_username", none, "user.name", .scrub, [], false⟩
    let user : Config := ⟨[shared], none⟩
    let merged := Config.builtin.merge (some user)
    Config.builtin.validate = .ok .builtin ∧ user.validate = .ok user ∧
      merged.validate = .error [.duplicateName "frame_vars_username"] ∧ ¬ merged.names.Nodup ∧
      merged.rules.length = 3 ∧ (merged.disable ["frame_vars_username"]).rules.length = 1 := by
  decide +kernel

end Redaction.Cli
