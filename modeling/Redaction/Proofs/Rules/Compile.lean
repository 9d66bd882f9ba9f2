import Redaction.Proofs.Path.Display
import Redaction.Proofs.Traversal
import Redaction.Rules.Compile

/-!
# What compiling makes of rules

A specification that compiles has compiled to its own path and its own redactor
(`RuleSpec.compile_eq_ok`, `RuleSpec.specifies_of_compile`), so a configuration compiles to its own
rules in their order, under its limit (`Config.compile_eq_ok`). It does if each of its rules
compiles (`Config.compile_of_compiles`), and else the first one that does not says why
(`Config.compile_eq_error_iff`).
-/

namespace Redaction

namespace RuleSpec

/-- The rule of a specification, whether or not it compiles. -/
def rule (r : RuleSpec) : Rule := ⟨r.name?, .parse r.path, r.redactor⟩

/-- A path is accepted if it is not empty, has no empty segment and does not end with the
wildcard. -/
theorem parseRule_eq_ok {dotted : String} {path : KeyPath}
    (h : KeyPath.parseRule dotted = .ok path) :
    path = .parse dotted ∧ dotted ≠ "" ∧ (∀ s ∈ path.segments, s.text ≠ "") ∧
      path.segments.getLast? ≠ some .eachElement := by
  unfold KeyPath.parseRule at h
  dsimp only at h
  split at h
  · cases h
  · next hempty =>
    split at h
    · cases h
    · next hsegments =>
      split at h
      · cases h
      · next hlast =>
        obtain rfl := Except.ok.inj h
        refine ⟨rfl, fun he => hempty (String.isEmpty_iff.mpr he), fun s hs he => ?_, hlast⟩
        exact hsegments (List.any_eq_true.mpr ⟨s, hs, String.isEmpty_iff.mpr he⟩)

theorem parseRule_of_compile {r : RuleSpec} {rule : Rule} (h : r.compile = .ok rule) :
    KeyPath.parseRule r.path = .ok rule.path := by
  obtain ⟨path, hpath, h⟩ := bind_eq_ok_iff.mp h
  dsimp only at h
  split at h
  · cases h
  · rw [← Except.ok.inj h, hpath]

theorem compile_eq_ok {r : RuleSpec} {rule : Rule} (h : r.compile = .ok rule) : rule = r.rule := by
  obtain ⟨path, hpath, h⟩ := bind_eq_ok_iff.mp h
  dsimp only at h
  split at h
  · cases h
  · rw [← Except.ok.inj h, (parseRule_eq_ok hpath).1]
    rfl

/-- The rule is the one that the specification describes: its path is displayed as it was written
and ends with a key, and its redactor does what the action says, to the entries that are named. -/
structure Specifies (r : RuleSpec) (rule : Rule) : Prop where
  name_eq : rule.name? = r.name?
  display_eq : rule.path.display = r.path
  finalKey : ∃ key, rule.path.finalKey? = some key ∧ key ≠ "" ∧ key ≠ wildcard
  redactor_eq : rule.redactor =
    match r.action with
    | .scrub => .scrub
    | .scrubCookies => .cookies (if r.allKeys then .all else .only r.keys)
    | .scrubQueryString => .queryString (if r.allKeys then .all else .only r.keys)

/-- **A specification describes the rule that it compiles to.** -/
theorem specifies_of_compile {r : RuleSpec} {rule : Rule} (h : r.compile = .ok rule) :
    r.Specifies rule := by
  obtain ⟨-, hne, hsegments, hlast⟩ := parseRule_eq_ok (parseRule_of_compile h)
  obtain rfl := compile_eq_ok h
  refine ⟨rfl, KeyPath.display_parse r.path, ?_, rfl⟩
  have hsome := List.getLast?_eq_some_getLast (KeyPath.segments_parse_ne_nil hne)
  generalize (KeyPath.parse r.path).segments.getLast _ = s at hsome
  refine ⟨s.text, congrArg (Option.map Segment.text) hsome,
    hsegments s (List.mem_of_getLast? hsome), fun hs => hlast (hsome.trans ?_)⟩
  rw [← Segment.ofText_text s, hs]
  rfl

end RuleSpec

/-- **A configuration that compiles has compiled to its own rules.** -/
theorem Config.compile_eq_ok {c : Config} {s : Scrubber} (h : c.compile = .ok s) :
    s = ⟨c.rules.map RuleSpec.rule, c.maxTargets⟩ := by
  obtain ⟨rules, hrules, h⟩ := bind_eq_ok_iff.mp h
  have hall : List.Forall₂ (fun r rule => r.rule = rule) c.rules rules :=
    (mapM_eq_ok_iff.mp hrules).imp fun _ _ hr => (RuleSpec.compile_eq_ok hr).symm
  have hmap : c.rules.map RuleSpec.rule = rules :=
    List.forall₂_eq_eq_eq ▸ List.forall₂_map_left_iff.mpr hall
  rw [hmap]
  exact (Except.ok.inj h).symm

/-- The specifications of a configuration that compiles describe its rules one by one. -/
theorem Config.specifies_of_compile {c : Config} {s : Scrubber} (h : c.compile = .ok s) :
    List.Forall₂ RuleSpec.Specifies c.rules s.rules := by
  obtain ⟨rules, hrules, h⟩ := bind_eq_ok_iff.mp h
  rw [← Except.ok.inj h]
  exact (mapM_eq_ok_iff.mp hrules).imp fun _ _ => RuleSpec.specifies_of_compile

/-- **A configuration does not compile because of its first rule that does not.** -/
theorem Config.compile_eq_error_iff {c : Config} {e : CompileError} :
    c.compile = .error e ↔ ∃ before r after, c.rules = before ++ r :: after ∧
      (∀ b ∈ before, ∃ rule, b.compile = .ok rule) ∧ r.compile = .error e := by
  rw [compile, bind_eq_error_iff, ← mapM_eq_error_iff]
  constructor
  · rintro (h | ⟨rules, -, h⟩)
    · exact h
    · cases h
  · exact Or.inl

/-- Every rule of the configuration compiles. -/
def Config.Compiles (c : Config) : Prop := ∀ r ∈ c.rules, ∃ rule, r.compile = .ok rule

theorem Config.compiles_of_compile {c : Config} {s : Scrubber} (h : c.compile = .ok s) :
    c.Compiles := by
  obtain ⟨rules, hrules, -⟩ := bind_eq_ok_iff.mp h
  exact fun r hr => exists_result_of_mapM_eq_ok hrules hr

/-- A configuration compiles if each of its rules does. -/
theorem Config.compile_of_compiles {c : Config} (h : c.Compiles) :
    c.compile = .ok ⟨c.rules.map RuleSpec.rule, c.maxTargets⟩ := by
  cases hc : c.compile with
  | ok s => rw [compile_eq_ok hc]
  | error e =>
    obtain ⟨before, r, after, hrules, -, hr⟩ := compile_eq_error_iff.mp hc
    obtain ⟨rule, hrule⟩ := h r (by rw [hrules]; simp)
    rw [hrule] at hr
    cases hr

end Redaction
