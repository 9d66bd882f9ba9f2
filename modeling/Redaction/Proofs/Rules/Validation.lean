import Redaction.Proofs.Rules.Compile
import Redaction.Rules.Load
import Redaction.Rules.Merge

/-!
# What passes validation compiles

Validation reports every rule that does not compile, so a configuration without problems compiles
(`Config.compiles_of_problems`), and what is loaded has no problems (`Config.problems_of_load`). The
rules of a merged configuration are the rules of both, and no rule is added when some are disabled,
so all that is made of such configurations compiles too.
-/

namespace Redaction.Config

variable {c base : Config} {seen : List String} {rules : List RuleSpec}

/-! ### One configuration -/

/-- Rules have no problems if the first of them has none, nor those behind it with its name seen. -/
theorem ruleProblems_cons_eq_nil {r : RuleSpec} : ruleProblems seen (r :: rules) = [] ↔
    r.nameProblem? seen = none ∧ r.compileProblem? = none ∧
      ruleProblems (r.name?.toList ++ seen) rules = [] := by
  rw [ruleProblems, List.append_eq_nil_iff, List.append_eq_nil_iff, Option.toList_eq_nil_iff,
    Option.toList_eq_nil_iff, and_assoc]

theorem compiles_of_ruleProblems (h : ruleProblems seen rules = []) :
    ∀ r ∈ rules, ∃ rule, r.compile = .ok rule := by
  induction rules generalizing seen with
  | nil => exact nofun
  | cons r rules ih =>
    obtain ⟨-, hr, hrest⟩ := ruleProblems_cons_eq_nil.mp h
    refine List.forall_mem_cons.mpr ⟨?_, ih hrest⟩
    cases hc : r.compile with
    | ok rule => exact ⟨rule, rfl⟩
    | error e =>
      rw [RuleSpec.compileProblem?, hc] at hr
      cases hr

theorem compiles_of_problems (h : c.problems = []) : c.Compiles :=
  compiles_of_ruleProblems (List.append_eq_nil_iff.mp h).1

theorem maxTargets_ne_zero (h : c.problems = []) : c.maxTargets ≠ some 0 := by
  intro hzero
  have hnone := (List.append_eq_nil_iff.mp h).2
  rw [if_pos hzero] at hnone
  cases hnone

theorem validate_eq_ok {c' : Config} (h : c.validate = .ok c') : c' = c ∧ c.problems = [] := by
  unfold validate at h
  split at h
  · next hnone => exact ⟨(Except.ok.inj h).symm, hnone⟩
  · cases h

/-- A configuration passes validation if it has no problems. -/
theorem validate_eq_ok_iff : c.validate = .ok c ↔ c.problems = [] :=
  ⟨fun h => (validate_eq_ok h).2, fun h => by rw [validate, h]⟩

/-- **What is loaded has no problems.** -/
theorem problems_of_load {text : String} (h : (load text).1 = .ok c) : c.problems = [] := by
  unfold load at h
  split at h
  · cases h
  · next c' _ =>
    dsimp only at h
    cases hv : c'.validate with
    | error problems =>
      rw [hv] at h
      cases h
    | ok c'' =>
      rw [hv] at h
      obtain rfl := Except.ok.inj h
      obtain ⟨rfl, hnone⟩ := validate_eq_ok hv
      exact hnone

/-- A text is not loaded if it is no configuration, or one with problems. -/
theorem exists_load_eq_error_iff {text : String} :
    (∃ e, (load text).1 = .error e) ↔ ¬ ∃ c, ofYaml text = .ok c ∧ c.problems = [] := by
  unfold load
  cases ofYaml text with
  | error problem => simp
  | ok c =>
    simp only [Except.ok.injEq, exists_eq_left']
    unfold validate
    split
    · next h => simp [h, Except.mapError]
    · next h => simpa [Except.mapError] using h

/-! ### Merged and narrowed configurations -/

theorem problems_builtin : Config.builtin.problems = [] := by decide +kernel

theorem compiles_builtin : Config.builtin.Compiles := compiles_of_problems problems_builtin

theorem Compiles.merge {user : Option Config} (h : base.Compiles)
    (huser : ∀ u ∈ user, u.Compiles) : (base.merge user).Compiles := by
  cases user with
  | none => exact h
  | some u => exact List.forall_mem_append.mpr ⟨h, huser u rfl⟩

theorem Compiles.disable (h : c.Compiles) (names : List String) : (c.disable names).Compiles :=
  fun r hr => h r (List.mem_of_mem_filter hr)

end Redaction.Config
