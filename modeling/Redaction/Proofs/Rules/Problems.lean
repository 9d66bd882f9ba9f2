import Redaction.Proofs.Rules.Names

/-!
# Every problem is reported, once and in order

Validation goes through the rules with the names that it has seen. What it reports can be said
without that state: what is wrong with a rule depends on the rule and on those before it
(`RuleSpec.problems`), and the report is made of these problems rule by rule
(`Config.ruleProblems_eq_flatMap`). A name that several rules bear is reported for all of them but
the first (`Config.count_duplicateName`).
-/

namespace Redaction

namespace RuleSpec

/-- What is wrong with the name of a rule that comes after the rules `earlier`. -/
def namingProblems (earlier : List RuleSpec) (r : RuleSpec) : List Problem :=
  match r.name? with
  | none => []
  | some name =>
    if name = "" then [.emptyName r.path]
    else if ∃ e ∈ earlier, e.name? = some name then [.duplicateName name]
    else []

/-- What is wrong with a rule that comes after the rules `earlier`. -/
def problems (earlier : List RuleSpec) (r : RuleSpec) : List Problem :=
  r.namingProblems earlier ++
    match r.compile with
    | .ok _ => []
    | .error e => [.compile e]

variable {r : RuleSpec} {earlier : List RuleSpec} {seen : List String}

/-- The names that have been seen are those of the earlier rules. -/
theorem toList_nameProblem? (h : ∀ name, name ∈ seen ↔ ∃ e ∈ earlier, e.name? = some name) :
    (r.nameProblem? seen).toList = r.namingProblems earlier := by
  unfold nameProblem? namingProblems
  cases r.name? with
  | none => rfl
  | some name =>
    by_cases hempty : name = ""
    · simp [hempty]
    · by_cases hseen : name ∈ seen
      · have hearlier := (h name).mp hseen
        simp [hempty, hseen, hearlier]
      · have hearlier : ¬ ∃ e ∈ earlier, e.name? = some name := fun he => hseen ((h name).mpr he)
        simp only [hempty, hearlier, if_false]
        simp [hempty, hseen]

theorem toList_compileProblem? (r : RuleSpec) : r.compileProblem?.toList =
    match r.compile with
    | .ok _ => []
    | .error e => [.compile e] := by
  unfold compileProblem?
  cases r.compile <;> rfl

/-- **Why a rule does not compile.** Its path comes before its keys. -/
theorem compile_eq_error_iff {e : CompileError} :
    r.compile = .error e ↔ KeyPath.parseRule r.path = .error e ∨
      (∃ path, KeyPath.parseRule r.path = .ok path) ∧ r.action ≠ .scrub ∧ r.allKeys = false ∧
        r.keys = [] ∧ e = .missingKeys r.label := by
  have hneeds : (r.action.needsKeys && !r.allKeys && r.keys.isEmpty) = true ↔
      r.action ≠ .scrub ∧ r.allKeys = false ∧ r.keys = [] := by
    cases r.action <;> simp [Action.needsKeys]
  rw [compile, bind_eq_error_iff]
  refine or_congr_right ⟨?_, ?_⟩
  · rintro ⟨path, hpath, h⟩
    split at h
    · next hkeys =>
      obtain ⟨haction, hall, hnone⟩ := hneeds.mp hkeys
      exact ⟨⟨path, hpath⟩, haction, hall, hnone, (Except.error.inj h).symm⟩
    · cases h
  · rintro ⟨⟨path, hpath⟩, haction, hall, hnone, rfl⟩
    refine ⟨path, hpath, ?_⟩
    rw [if_pos (hneeds.mpr ⟨haction, hall, hnone⟩)]
    rfl

end RuleSpec

namespace Config

variable {c : Config}

/-- **The report, rule by rule.** The names that have been seen are those of the rules before. -/
theorem ruleProblems_eq_flatMap (before rules : List RuleSpec) (seen : List String)
    (h : ∀ name, name ∈ seen ↔ ∃ e ∈ before, e.name? = some name) :
    ruleProblems seen rules = (rules.zipIdx before.length).flatMap fun (r, i) =>
      r.problems ((before ++ rules).take i) := by
  induction rules generalizing before seen with
  | nil => rfl
  | cons r rules ih =>
    -- a rule registers its name whether or not it has a problem
    have hseen : ∀ name, name ∈ r.name?.toList ++ seen ↔
        ∃ e ∈ before ++ [r], e.name? = some name := by
      intro name
      rw [List.mem_append, h name, Option.mem_toList]
      simp [or_and_right, exists_or, or_comm]
    have hrest := ih (before ++ [r]) _ hseen
    rw [List.length_append, List.length_singleton, ← List.append_cons] at hrest
    have hfirst : (before ++ r :: rules).take before.length = before := List.take_left
    rw [ruleProblems, hrest, List.zipIdx_cons, List.flatMap_cons]
    dsimp only
    rw [hfirst, RuleSpec.problems, RuleSpec.toList_nameProblem? h,
      RuleSpec.toList_compileProblem?]

theorem problems_eq (c : Config) :
    c.problems = (c.rules.zipIdx.flatMap fun (r, i) => r.problems (c.rules.take i)) ++
      if c.maxTargets = some 0 then [.zeroLimit] else [] := by
  rw [problems, ruleProblems_eq_flatMap [] c.rules [] (by simp)]
  rfl

/-! ### Names that are borne more than once -/

theorem count_nameProblem? (seen : List String) (r : RuleSpec) (name : String) :
    (r.nameProblem? seen).toList.count (.duplicateName name) =
      if r.name? = some name ∧ name ≠ "" ∧ name ∈ seen then 1 else 0 := by
  unfold RuleSpec.nameProblem?
  cases r.name? with
  | none => simp
  | some other =>
    by_cases hempty : other = ""
    · have hnone : ¬ (some other = some name ∧ name ≠ "" ∧ name ∈ seen) := by
        rintro ⟨he, hne, -⟩
        exact hne (Option.some.inj he ▸ hempty)
      rw [if_neg hnone]
      simp [hempty]
    · by_cases hother : other = name
      · subst hother
        by_cases hseen : other ∈ seen <;> simp [hempty, hseen]
      · by_cases hseen : other ∈ seen <;> simp [hempty, hseen, hother]

theorem count_compileProblem? (r : RuleSpec) (name : String) :
    r.compileProblem?.toList.count (.duplicateName name) = 0 := by
  unfold RuleSpec.compileProblem?
  cases r.compile <;> simp

/-- The first rule with a name is not reported for it, unless the name has been seen. -/
theorem count_ruleProblems (seen : List String) (rules : List RuleSpec) (name : String) :
    (ruleProblems seen rules).count (.duplicateName name) =
      if name = "" then 0
      else (rules.filterMap (·.name?)).count name - if name ∈ seen then 0 else 1 := by
  induction rules generalizing seen with
  | nil => simp [ruleProblems]
  | cons r rules ih =>
    rw [ruleProblems, List.count_append, List.count_append, count_nameProblem?,
      count_compileProblem?, ih]
    cases hr : r.name? with
    | none =>
      have hname : ¬ (none = some name ∧ name ≠ "" ∧ name ∈ seen) := by
        rintro ⟨he, -⟩
        cases he
      rw [if_neg hname, List.filterMap_cons_none hr, Nat.zero_add]
      rfl
    | some other =>
      rw [List.filterMap_cons_some hr, List.count_cons, Option.toList_some, List.singleton_append]
      simp only [List.mem_cons, Option.some.injEq, beq_iff_eq]
      by_cases hempty : name = ""
      · simp [hempty]
      · by_cases hother : other = name
        · by_cases hseen : name ∈ seen <;> simp [hempty, hother, hseen, Nat.add_comm]
        · have hname : ¬ name = other := fun h => hother h.symm
          simp [hempty, hother, hname]

/-- **All but the first of the rules with one name are reported.** -/
theorem count_duplicateName (c : Config) (name : String) :
    c.problems.count (.duplicateName name) = if name = "" then 0 else c.names.count name - 1 := by
  have hlimit : (if c.maxTargets = some 0 then [Problem.zeroLimit] else []).count
      (.duplicateName name) = 0 := by
    split <;> simp
  rw [problems, List.count_append, hlimit, count_ruleProblems, if_neg List.not_mem_nil, names,
    Nat.add_zero]

/-! ### The report -/

theorem validate_eq (c : Config) :
    c.validate = if c.problems = [] then .ok c else .error c.problems := by
  unfold validate
  split
  · next h => rw [if_pos h]
  · next hne => rw [if_neg hne]

theorem toEntry_ignoredKeys (label : String) : (Notice.ignoredKeys label).toEntry =
    ⟨.warn, .config,
      s!"Rule '{label}': `keys`/`all_keys` are ignored for action 'scrub'."⟩ := by
  have htext : "Rule '" ++ label ++ "': `keys`/`all_keys` are ignored for action '" ++ "scrub" ++
      "'." = "Rule '" ++ label ++ "': `keys`/`all_keys` are ignored for action 'scrub'." := by
    simp only [String.append_assoc]
    rfl
  exact congrArg (Log.Entry.mk .warn .config) htext

/-- Each rule that masks whole values and yet lists keys is warned about. -/
theorem map_toEntry_validationNotices (c : Config) :
    c.validationNotices.map Notice.toEntry =
      (c.rules.filter fun r => r.action = .scrub ∧ (r.allKeys = true ∨ r.keys ≠ [])).map fun r =>
        ⟨.warn, .config,
          s!"Rule '{r.label}': `keys`/`all_keys` are ignored for action 'scrub'."⟩ := by
  have hfilter : c.rules.filter (·.ignoresKeys) =
      c.rules.filter fun r => r.action = .scrub ∧ (r.allKeys = true ∨ r.keys ≠ []) := by
    refine List.filter_congr fun r _ => ?_
    have hkeys : (!r.keys.isEmpty) = decide (r.keys ≠ []) := by cases r.keys <;> rfl
    unfold RuleSpec.ignoresKeys
    rw [hkeys]
    cases r.action <;> simp [Action.needsKeys]
  rw [validationNotices, hfilter, List.map_map]
  exact List.map_congr_left fun r _ => toEntry_ignoredKeys r.label

/-- **Validation reports exactly the problems there are, all of them, in order.** The report goes
through the rules: each may have an empty name, or else the name of an earlier rule, and then the
error with which it does not compile; a limit of zero comes last. The configuration is accepted if
and only if the report is empty, and is else refused with a message that has a line for each
problem, which names the rule or its path. A name is reported as often as it is repeated, the empty
one never. With either outcome each rule that masks whole values and yet lists keys is warned
about. -/
theorem validate_reports (c : Config) :
    let report := (c.rules.zipIdx.flatMap fun (r, i) => r.problems (c.rules.take i)) ++
      if c.maxTargets = some 0 then [.zeroLimit] else []
    c.validate = (if report = [] then .ok c else .error report) ∧
    (LoadError.validation report).message =
      "Rule validation failed:\n" ++ "\n".intercalate (report.map Problem.message) ∧
    (∀ (path name label : String) (e : CompileError) (fault : PathProblem),
      (Problem.emptyName path).message = s!"Rule at '{path}' has an empty `name` field." ∧
      (Problem.duplicateName name).message = s!"Duplicate rule name found: '{name}'." ∧
      (Problem.compile e).message = e.message ∧
      (CompileError.invalidPath path fault).message =
        s!"Invalid key path '{path}': {fault.text}" ∧
      (CompileError.missingKeys label).message =
        s!"Rule '{label}' needs a non-empty `keys` list or `all_keys: true`" ∧
      PathProblem.empty.text = "path is empty" ∧
      PathProblem.emptySegment.text = "path has an empty segment" ∧
      PathProblem.endsWithWildcard.text = "path cannot end with `[]`" ∧
      Problem.zeroLimit.message = "`settings.max_targets_per_rule` must be greater than 0.") ∧
    (∀ name, report.count (.duplicateName name) =
      if name = "" then 0 else c.names.count name - 1) ∧
    (∀ r ∈ c.rules, ∀ e, r.compile = .error e ↔ KeyPath.parseRule r.path = .error e ∨
      (∃ path, KeyPath.parseRule r.path = .ok path) ∧ r.action ≠ .scrub ∧ r.allKeys = false ∧
        r.keys = [] ∧ e = .missingKeys r.label) ∧
    c.validationNotices.map Notice.toEntry =
      (c.rules.filter fun r => r.action = .scrub ∧ (r.allKeys = true ∨ r.keys ≠ [])).map (fun r =>
        ⟨.warn, .config,
          s!"Rule '{r.label}': `keys`/`all_keys` are ignored for action 'scrub'."⟩) ∧
    ∀ text, ofYaml text = .ok c → load text =
      (if report = [] then .ok c else .error (.validation report), c.validationNotices) := by
  intro report
  have hreport : c.problems = report := problems_eq c
  have hvalidate : c.validate = if report = [] then .ok c else .error report := by
    rw [validate_eq, hreport]
  refine ⟨hvalidate, rfl, fun path name label e fault => ?_, fun name => ?_,
    fun r _ e => RuleSpec.compile_eq_error_iff, map_toEntry_validationNotices c,
    fun text htext => ?_⟩
  · exact ⟨rfl, rfl, rfl, rfl, rfl, rfl, rfl, rfl, rfl⟩
  · rw [← hreport]
    exact count_duplicateName c name
  · have hload : load text = (c.validate.mapError .validation, c.validationNotices) := by
      rw [load, htext]
    rw [hload, hvalidate]
    split <;> rfl

/-- A repeated name on a rule that does not compile either and has keys for nothing, an empty name,
missing keys, and no target allowed. -/
theorem validate_reports_all :
    let text := "\n".intercalate ["rules:",
      "- {name: a, path: b}", "- {name: a, path: b., keys: [k]}",
      "- name: \"\"", "  path: c", "  action: scrub_cookies", "- {path: d, action: scrub_cookies}",
      "settings: {max_targets_per_rule: 0}"]
    let message := "\n".intercalate ["Rule validation failed:",
      "Duplicate rule name found: 'a'.",
      "Invalid key path 'b.': path has an empty segment",
      "Rule at 'c' has an empty `name` field.",
      "Rule '' needs a non-empty `keys` list or `all_keys: true`",
      "Rule 'd' needs a non-empty `keys` list or `all_keys: true`",
      "`settings.max_targets_per_rule` must be greater than 0."]
    (∃ c, ofYaml text = .ok c) ∧ (load text).1.mapError LoadError.message = .error message ∧
      (load text).2.map Notice.toEntry = [⟨.warn, .config,
        "Rule 'a': `keys`/`all_keys` are ignored for action 'scrub'."⟩] := by
  intro text message
  let c : Config := ⟨[⟨some "a", none, "b", .scrub, [], false⟩,
    ⟨some "a", none, "b.", .scrub, ["k"], false⟩,
    ⟨some "", none, "c", .scrubCookies, [], false⟩,
    ⟨none, none, "d", .scrubCookies, [], false⟩], some 0⟩
  have htext : ofYaml text = .ok c := by decide +kernel
  obtain ⟨-, -, -, -, -, hlog, hload⟩ := validate_reports c
  rw [hload text htext]
  refine ⟨⟨c, htext⟩, ?_, hlog.trans ?_⟩
  · decide +kernel
  · decide +kernel

end Config

end Redaction
