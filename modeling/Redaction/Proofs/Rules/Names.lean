import Redaction.Proofs.Rules.Combining

/-!
# Names of rules

In a configuration without problems no two rules have the same name (`Config.nodup_names`). When two
such configurations are merged, nothing but names that stand in both is wrong with the outcome
(`Config.problems_merge`), and to disable a name takes away as many rules as bear it
(`Config.length_rules_disable_cons`).
-/

namespace Redaction

/-- A name is no problem if it is not empty and has not been seen. -/
theorem RuleSpec.nameProblem?_eq_none_iff {seen : List String} {r : RuleSpec} :
    r.nameProblem? seen = none ↔ ∀ name ∈ r.name?, name ≠ "" ∧ name ∉ seen := by
  unfold nameProblem?
  cases r.name? with
  | none => simp
  | some name =>
    by_cases hne : name = ""
    · simp [hne]
    · by_cases hmem : name ∈ seen <;> simp [hne, hmem]

namespace Config

variable {c base user : Config} {seen : List String} {rules : List RuleSpec}

/-- The names that rules bear, in the order of the rules. -/
def names (c : Config) : List String := c.rules.filterMap (·.name?)

/-! ### One configuration -/

theorem nodup_of_ruleProblems (h : ruleProblems seen rules = []) :
    (rules.filterMap (·.name?)).Nodup ∧ ∀ name ∈ rules.filterMap (·.name?), name ∉ seen := by
  induction rules generalizing seen with
  | nil => exact ⟨List.nodup_nil, nofun⟩
  | cons r rules ih =>
    obtain ⟨hname, -, hrest⟩ := ruleProblems_cons_eq_nil.mp h
    obtain ⟨hnodup, hseen⟩ := ih hrest
    rw [RuleSpec.nameProblem?_eq_none_iff] at hname
    cases hr : r.name? with
    | none =>
      rw [List.filterMap_cons_none hr]
      rw [hr] at hseen
      exact ⟨hnodup, hseen⟩
    | some name =>
      rw [List.filterMap_cons_some hr]
      rw [hr] at hseen
      refine ⟨List.nodup_cons.mpr ⟨fun hmem => hseen name hmem List.mem_cons_self, hnodup⟩, ?_⟩
      intro n hn
      rcases List.mem_cons.mp hn with rfl | hn
      · exact (hname n hr).2
      · exact fun hmem => hseen n hn (List.mem_cons_of_mem name hmem)

/-- **No two rules of a configuration without problems have the same name.** -/
theorem nodup_names (h : c.problems = []) : c.names.Nodup :=
  (nodup_of_ruleProblems (List.append_eq_nil_iff.mp h).1).1

/-! ### Two configurations -/

theorem names_merge (base user : Config) :
    (base.merge (some user)).names = base.names ++ user.names := List.filterMap_append

theorem ruleProblems_append (seen : List String) (rules rules' : List RuleSpec) :
    ruleProblems seen (rules ++ rules') = ruleProblems seen rules ++
      ruleProblems ((rules.filterMap (·.name?)).reverse ++ seen) rules' := by
  induction rules generalizing seen with
  | nil => rfl
  | cons r rules ih =>
    rw [List.cons_append, ruleProblems, ruleProblems, ih, List.append_assoc, List.append_assoc]
    cases hr : r.name? with
    | none => rw [List.filterMap_cons_none hr]; simp
    | some name => rw [List.filterMap_cons_some hr]; simp

/-- If rules have no problems on their own, then after others only those whose names have been used
do. -/
theorem ruleProblems_seen (h : ruleProblems seen rules = []) (seen' : List String) :
    ruleProblems (seen ++ seen') rules =
      ((rules.filterMap (·.name?)).filter (· ∈ seen')).map .duplicateName := by
  induction rules generalizing seen with
  | nil => rfl
  | cons r rules ih =>
    obtain ⟨hname, hcompile, hrest⟩ := ruleProblems_cons_eq_nil.mp h
    rw [RuleSpec.nameProblem?_eq_none_iff] at hname
    rw [ruleProblems, hcompile, ← List.append_assoc _ seen seen', ih hrest]
    cases hr : r.name? with
    | none => simp [RuleSpec.nameProblem?, hr]
    | some name =>
      obtain ⟨hne, hnew⟩ := hname name hr
      by_cases hmem : name ∈ seen'
      · simp [RuleSpec.nameProblem?, hr, hne, hmem]
      · simp [RuleSpec.nameProblem?, hr, hne, hnew, hmem]

/-- **What is wrong with a merged configuration are the names that stand in both parts.** -/
theorem problems_merge (hbase : base.problems = []) (huser : user.problems = []) :
    (base.merge (some user)).problems =
      (user.names.filter (· ∈ base.names)).map .duplicateName := by
  have hrules : ruleProblems [] base.rules = [] := (List.append_eq_nil_iff.mp hbase).1
  have hrules' : ruleProblems [] user.rules = [] := (List.append_eq_nil_iff.mp huser).1
  have hlimit : (user.maxTargets <|> base.maxTargets) ≠ some 0 := by
    have hpositive := maxTargets_ne_zero huser
    cases h : user.maxTargets with
    | none => exact maxTargets_ne_zero hbase
    | some n =>
      rw [h] at hpositive
      exact hpositive
  have hmerged : ruleProblems [] (base.rules ++ user.rules) =
      (user.names.filter (· ∈ base.names.reverse)).map .duplicateName := by
    rw [ruleProblems_append, hrules, List.nil_append, List.append_nil]
    exact ruleProblems_seen hrules' base.names.reverse
  rw [problems, merge, if_neg hlimit, hmerged, List.append_nil]
  simp only [List.mem_reverse]

/-! ### Disabled names -/

theorem names_disable (c : Config) (disabled : List String) :
    (c.disable disabled).names = c.names.filter (· ∉ disabled) := by
  rw [names, rules_disable, names, List.filterMap_filter, List.filter_filterMap]
  refine List.filterMap_congr fun r _ => ?_
  cases h : r.name? with
  | none => simp
  | some name => by_cases hmem : name ∈ disabled <;> simp [hmem, Option.filter_some]

/-- The names that are left in a merged configuration are distinct if those in both parts are
disabled. -/
theorem nodup_names_merge_disable (hbase : base.problems = []) (huser : user.problems = [])
    (disabled : List String) : ((base.merge (some user)).disable disabled).names.Nodup ↔
      ∀ name ∈ base.names, name ∈ user.names → name ∈ disabled := by
  have hfirst : (base.names.filter (· ∉ disabled)).Nodup := (nodup_names hbase).filter _
  have hsecond : (user.names.filter (· ∉ disabled)).Nodup := (nodup_names huser).filter _
  rw [names_disable, names_merge, List.filter_append, List.nodup_append]
  constructor
  · rintro ⟨-, -, hapart⟩ name hb hu
    by_contra hleft
    have hkept : ∀ {names : List String}, name ∈ names → name ∈ names.filter (· ∉ disabled) :=
      fun hmem => List.mem_filter.mpr ⟨hmem, decide_eq_true hleft⟩
    exact hapart name (hkept hb) name (hkept hu) rfl
  · intro h
    refine ⟨hfirst, hsecond, ?_⟩
    rintro name hb _ hu rfl
    obtain ⟨hb, hleft⟩ := List.mem_filter.mp hb
    exact of_decide_eq_true hleft (h name hb (List.mem_of_mem_filter hu))

theorem countP_name (rules : List RuleSpec) (name : String) :
    rules.countP (·.name? = some name) = (rules.filterMap (·.name?)).count name := by
  rw [List.count, List.countP_filterMap]
  refine List.countP_congr fun r _ => ?_
  cases r.name? with
  | none => simp
  | some n => simp

theorem rules_disable_cons (c : Config) (name : String) (disabled : List String) :
    (c.disable (name :: disabled)).rules =
      (c.disable disabled).rules.filter (¬ ·.name? = some name) := by
  rw [rules_disable, rules_disable, List.filter_filter]
  refine List.filter_congr fun r _ => ?_
  simp

/-- To disable one more name takes away the rules that bear it. -/
theorem length_rules_disable_cons {disabled : List String} {name : String} (h : name ∉ disabled) :
    (c.disable disabled).rules.length =
      (c.disable (name :: disabled)).rules.length + c.names.count name := by
  have hcount : (c.disable disabled).rules.countP (·.name? = some name) = c.names.count name := by
    rw [countP_name, ← names, names_disable, List.count_filter (by simpa using h)]
  have hsplit := List.length_eq_countP_add_countP (fun r : RuleSpec => decide (r.name? = some name))
    (l := (c.disable disabled).rules)
  simp only [decide_eq_true_eq] at hsplit
  rw [rules_disable_cons, ← hcount, ← List.countP_eq_length_filter, Nat.add_comm]
  exact hsplit

end Config

end Redaction
