import Redaction.Proofs.Cli.Loading
import Redaction.Proofs.Rules.Json
import Redaction.Proofs.Scrubbing.Merging

/-!
# Listed rules

The rules command loads rules as the scrub command does and writes nothing but a list of them
(`yields_rules`). As JSON the list is a configuration again, with the rules that the scrub command
is given (`run_rules_json`).
-/

namespace Redaction.Cli

section Listing

/-- What the rules command writes. -/
def listing (c : Config) (json : Bool) : String :=
  (if json then Json.pretty c.rulesJson else c.table.render) ++ "\n"

variable {environment : Environment} {m : Machine} {o : RulesOptions} {c : Config}

theorem yields_rules (filter : Log.Filter) (h : m.files.rules environment o.source = .ok c) :
    Yields ((session environment filter).rules o) m (.ok ())
      { m with output := m.output ++ listing c o.json } := by
  have hload := yields_loadRules environment filter m o.source
  rw [h] at hload
  refine .bind hload ?_
  rw [Config.compile_of_compiles (Files.compiles_rules h)]
  refine .bind (.lift (runs_notices environment filter m _)) ?_
  exact .lift fun errors => ⟨errors, rfl⟩

/-- A run writes the list and ends well. -/
theorem runs_run_rules (quiet debug : Bool) (h : m.files.rules environment o.source = .ok c) :
    Runs (run Machine.host environment ⟨quiet, debug, .rules o⟩) m 0
      { m with output := m.output ++ listing c o.json } := by
  have hcommand : ∀ filter, Yields ((session environment filter).command ⟨quiet, debug, .rules o⟩) m
      (.ok 0) { m with output := m.output ++ listing c o.json } :=
    fun filter => .bind (yields_rules filter h) (.pure 0 _)
  exact runs_run_of_command environment m hcommand

end Listing

/-- **The rules command shows what the scrub command runs.** If the file of the user's rules, if
there is one, has a configuration without problems, then both commands load the same rules. With
`json` a run of the rules command ends well and writes a line that is an array; with the key `rules`
in front of it, it is read as a configuration with the very rules that were loaded. So under
whatever limit both configurations compile, and their scrubbers do the same with every event. -/
theorem run_rules_json (environment : Environment) (m : Machine) (source : RuleSource)
    (hvalid : ∀ file, m.files.userFile? environment source = some file →
      ∃ text u, m.files.text file = .ok text ∧ Config.ofYaml text = .ok u ∧ u.problems = []) :
    ∃ (c : Config) (line : String),
      (∀ filter, ∃ errors, ((session environment filter).loadRules source).run m =
        (.ok c, m.withErrors errors)) ∧
      (∀ quiet debug, ∃ errors,
        run Machine.host environment ⟨quiet, debug, .rules ⟨true, source⟩⟩ m =
          (0, { m with output := m.output ++ line, errors })) ∧
      (∃ items, Json.parse? line = some (.array items)) ∧
      ∃ v c', Json.parse? ("\x7b\"rules\": " ++ line ++ "\x7d") = some v ∧
        Config.ofJson? v = some c' ∧ c'.rules = c.rules ∧
        ∀ limit, ∃ s s', (c.withLimit limit).compile = .ok s ∧
          (c'.withLimit limit).compile = .ok s' ∧ ∀ event t, s.scrub event t = s'.scrub event t := by
  obtain ⟨c, hc⟩ : ∃ c, m.files.rules environment source = .ok c := by
    cases hrules : m.files.rules environment source with
    | ok c => exact ⟨c, rfl⟩
    | error e =>
      obtain ⟨file, hfile, hno⟩ := Files.exists_rules_eq_error_iff.mp ⟨e, hrules⟩
      exact absurd (hvalid file hfile) hno
  have hload := fun filter => yields_loadRules environment filter m source
  rw [hc] at hload
  have hcompiles : c.Compiles := Files.compiles_rules hc
  refine ⟨c, Json.pretty c.rulesJson ++ "\n", fun filter => hload filter m.errors,
    fun quiet debug => runs_run_rules quiet debug hc m.errors, ⟨_, c.parse?_rules⟩,
    _, _, c.parse?_wrapped, c.ofJson?_rules, rfl, fun limit => ?_⟩
  have hcompile : (c.withLimit limit).compile = .ok _ :=
    Config.compile_of_compiles (c := c.withLimit limit) hcompiles
  exact ⟨_, _, hcompile, hcompile, fun _ _ => rfl⟩

/-- A built-in rule is disabled, and the name of the user's rule, which is in the usual file, must be
escaped. -/
theorem run_rules_json_escaped :
    let text := "rules:\n  - name: \"say \\\"name\\\"\"\n    path: user.name\n"
    let m : Machine := ⟨⟨[], [(["cfg"], .directory), (["cfg", "eventscrub"], .directory),
      (["cfg", "eventscrub", "rules.yaml"], .file (Text.Utf8.encode text.toList))]⟩, [], "", ""⟩
    let source : RuleSource := ⟨none, false, ["frame_vars_username"]⟩
    let environment : Environment := ⟨none, none, some "cfg", false⟩
    let rule : RuleSpec := ⟨some "say \"name\"", none, "user.name", .scrub, [], false⟩
    (∀ file, m.files.userFile? environment source = some file → ∃ text u,
        m.files.text file = .ok text ∧ Config.ofYaml text = .ok u ∧ u.problems = []) ∧
      ∃ line errors v c', run Machine.host environment ⟨true, false, .rules ⟨true, source⟩⟩ m =
          (0, { m with output := line, errors }) ∧
        Json.parse? ("\x7b\"rules\": " ++ line ++ "\x7d") = some v ∧
        Config.ofJson? v = some c' ∧ c'.rules = [Config.builtin.rules[1], rule] := by
  intro text m source environment rule
  have hvalid : ∀ file, m.files.userFile? environment source = some file → ∃ text u,
      m.files.text file = .ok text ∧ Config.ofYaml text = .ok u ∧ u.problems = [] := by
    intro file hfile
    have husual : m.files.userFile? environment source = some "cfg/eventscrub/rules.yaml" := by
      decide +kernel
    obtain rfl := Option.some.inj (husual.symm.trans hfile)
    exact ⟨text, ⟨[rule], none⟩, by decide +kernel, by decide +kernel, by decide +kernel⟩
  obtain ⟨c, line, hload, hrun, -, v, c', hparse, hread, hrules, -⟩ :=
    run_rules_json environment m source hvalid
  have hc : m.files.rules environment source = .ok ⟨[Config.builtin.rules[1], rule], none⟩ := by
    decide +kernel
  obtain ⟨errors, hloaded⟩ := hload (Log.Filter.of none none).1
  obtain rfl := Except.ok.inj ((rules_of_loadRules hloaded).symm.trans hc)
  obtain ⟨errors, hrun⟩ := hrun true false
  rw [show m.output = "" from rfl, String.empty_append] at hrun
  exact ⟨hvalid, line, errors, v, c', hrun, hparse, hread, hrules⟩

end Redaction.Cli
