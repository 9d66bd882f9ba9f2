import Redaction.Proofs.Cli.Machine
import Redaction.Proofs.Rules.Validation

/-!
# What a run reads

The rules that a command line asks for depend on the environment and on the files alone
(`Files.rules`), and the text of the event on a file or on the input (`Machine.eventText`). A run
reads just these, and writes nothing but to the error output while it does (`yields_loadRules`,
`yields_readEvent`). For what comes of a run it is enough to know what comes of its command
(`runs_run_of_command`).
-/

namespace Redaction.Cli

/-! ### What there is to read -/

namespace Files

variable (f : Files)

/-- The text in a file. -/
def text (path : String) : Except FileError String := (f.read path).bind decodeText

/-- The configuration in a file, or why there is none. -/
def config (file : String) : Except Failure Config := do
  let text ← (f.text file).mapError (.readConfig file)
  (Config.load text).1.mapError (.loadConfig file)

/-- The file of the user's rules: the one that is named, or the usual one if it is there. -/
def userFile? (environment : Environment) (source : RuleSource) : Option String :=
  source.file?.or (environment.userFile?.filter f.isFile)

/-- The user's rules, if there is a file of them. -/
def userRules? (environment : Environment) (source : RuleSource) :
    Except Failure (Option Config) :=
  match f.userFile? environment source with
  | some file => do return some (← f.config file)
  | none => return none

/-- The rules that the command line asks for: the built-in ones if they are wanted, then the user's,
without those that are disabled. -/
def rules (environment : Environment) (source : RuleSource) : Except Failure Config := do
  let base : Config := if source.noDefaults then .empty else .builtin
  return (base.merge (← f.userRules? environment source)).disable source.disabled

end Files

/-- The text of the event: that of a file, or of the input. -/
def Machine.eventText (m : Machine) : Option String → Except FileError String
  | some file => m.files.text file
  | none => decodeText m.input

/-! ### When there are no rules -/

section Missing

variable {f : Files} {file : String} {environment : Environment} {source : RuleSource} {c : Config}

theorem exists_mapError_iff {α ε ε' : Type} {x : Except ε α} {g : ε → ε'} :
    (∃ e, x.mapError g = .error e) ↔ ∃ e, x = .error e := by
  cases x <;> simp [Except.mapError]

/-- What only goes on with a result fails if there is none. -/
theorem exists_map_iff {α β : Type} {x : Except Failure α} {g : α → β} :
    (∃ e, (do return g (← x)) = .error e) ↔ ∃ e, x = .error e := by
  cases x with
  | error e => exact ⟨fun _ => ⟨e, rfl⟩, fun _ => ⟨e, rfl⟩⟩
  | ok a => exact ⟨fun ⟨e, h⟩ => (by cases h), fun ⟨e, h⟩ => (by cases h)⟩

/-- A file has no configuration if its text is not that of a configuration without problems. -/
theorem Files.exists_config_eq_error_iff : (∃ e, f.config file = .error e) ↔
    ¬ ∃ text c, f.text file = .ok text ∧ Config.ofYaml text = .ok c ∧ c.problems = [] := by
  unfold config
  cases f.text file with
  | error e =>
    constructor
    · rintro - ⟨text, c, htext, -⟩
      cases htext
    · exact fun _ => ⟨_, rfl⟩
  | ok text =>
    have hload : (∃ e, (Config.load text).1.mapError (Failure.loadConfig file) = .error e) ↔ _ :=
      exists_mapError_iff.trans Config.exists_load_eq_error_iff
    refine hload.trans (not_congr ?_)
    constructor
    · rintro ⟨c, hc⟩
      exact ⟨text, c, rfl, hc⟩
    · rintro ⟨text', c, htext, hc⟩
      obtain rfl := Except.ok.inj htext
      exact ⟨c, hc⟩

/-- There are no rules if there is a rule file without a configuration. -/
theorem Files.exists_rules_eq_error_iff : (∃ e, f.rules environment source = .error e) ↔
    ∃ file, f.userFile? environment source = some file ∧
      ¬ ∃ text c, f.text file = .ok text ∧ Config.ofYaml text = .ok c ∧ c.problems = [] := by
  refine exists_map_iff.trans ?_
  unfold userRules?
  cases f.userFile? environment source with
  | none =>
    constructor
    · rintro ⟨e, he⟩
      cases he
    · rintro ⟨file, hfile, -⟩
      cases hfile
  | some file =>
    refine exists_map_iff.trans (exists_config_eq_error_iff.trans ?_)
    constructor
    · exact fun h => ⟨file, rfl, h⟩
    · rintro ⟨file', hfile, h⟩
      obtain rfl := Option.some.inj hfile
      exact h

theorem Files.problems_config (h : f.config file = .ok c) : c.problems = [] := by
  obtain ⟨text, -, h⟩ := bind_eq_ok_iff.mp h
  cases hload : (Config.load text).1 with
  | error e =>
    rw [hload] at h
    cases h
  | ok c' =>
    rw [hload] at h
    obtain rfl := Except.ok.inj h
    exact Config.problems_of_load hload

/-- The user's rules have no problems. -/
theorem Files.problems_userRules (h : f.userRules? environment source = .ok (some c)) :
    c.problems = [] := by
  unfold userRules? at h
  split at h
  · obtain ⟨u, hu, h⟩ := bind_eq_ok_iff.mp h
    obtain rfl := Option.some.inj (Except.ok.inj h)
    exact problems_config hu
  · cases h

/-- The rules that are loaded are the built-in ones, unless they are not wanted, merged with the
user's, without those that are disabled. -/
theorem Files.exists_userRules_of_rules (h : f.rules environment source = .ok c) :
    ∃ user, f.userRules? environment source = .ok user ∧
      c = ((if source.noDefaults then .empty else .builtin : Config).merge user).disable
        source.disabled := by
  obtain ⟨user, huser, h⟩ := bind_eq_ok_iff.mp h
  exact ⟨user, huser, (Except.ok.inj h).symm⟩

/-- The built-in rules have no problems, nor has no rule at all. -/
theorem Files.problems_builtin (source : RuleSource) :
    (if source.noDefaults then .empty else .builtin : Config).problems = [] := by
  split
  · rfl
  · exact Config.problems_builtin

/-- All rules that a run is given compile. -/
theorem Files.compiles_rules (h : f.rules environment source = .ok c) : c.Compiles := by
  obtain ⟨user, huser, rfl⟩ := exists_userRules_of_rules h
  have hbase := Config.compiles_of_problems (problems_builtin source)
  refine (hbase.merge fun u hu => ?_).disable source.disabled
  obtain rfl := Option.mem_def.mp hu
  exact Config.compiles_of_problems (problems_userRules huser)

end Missing

/-! ### Reading it -/

section Sessions

variable (environment : Environment) (filter : Log.Filter) (m : Machine)

/-- A run of a command on a machine. -/
def session : Session (StateM Machine) := ⟨Machine.host, environment, filter⟩

theorem runs_putError (text : String) : Runs (Machine.host.putError text) m () m :=
  fun errors => ⟨errors ++ text, rfl⟩

theorem runs_log (entries : List Log.Entry) :
    Runs ((session environment filter).log entries) m () m :=
  .forM fun e _ => runs_putError m e.line

theorem runs_notices (ns : List Notice) : Runs ((session environment filter).notices ns) m () m :=
  runs_log environment filter m _

theorem runs_tell (tone : Tone) (text : String) :
    Runs ((session environment filter).tell tone text) m () m :=
  runs_putError m _

theorem runs_readFile (file : String) :
    Runs (Machine.host.readFile file) m (m.files.read file) m :=
  fun errors => ⟨errors, rfl⟩

theorem runs_readInput : Runs Machine.host.readInput m m.input m := fun errors => ⟨errors, rfl⟩

theorem runs_isFile (file : String) : Runs (Machine.host.isFile file) m (m.files.isFile file) m :=
  fun errors => ⟨errors, rfl⟩

/-- A run loads the configuration that is in a file. -/
theorem yields_loadFile (file : String) :
    Yields ((session environment filter).loadFile file) m (m.files.config file) m := by
  refine .bind (.lift (runs_notices environment filter m _)) ?_
  refine .bind (.lift (runs_readFile m file)) ?_
  rw [Files.config, Files.text]
  dsimp only
  cases (m.files.read file).bind decodeText with
  | error e => exact .bind_error (.throw _ m)
  | ok text =>
    refine .bind (.pure text m) ?_
    show Yields _ m ((Config.load text).1.mapError (.loadConfig file)) m
    refine .bind (.lift (runs_notices environment filter m _)) ?_
    cases (Config.load text).1 with
    | error e => exact .throw _ m
    | ok config =>
      refine .bind (.lift (runs_notices environment filter m _)) ?_
      exact .pure config m

theorem runs_loadBuiltin (source : RuleSource) :
    Runs ((session environment filter).loadBuiltin source) m
      (if source.noDefaults then .empty else .builtin) m := by
  unfold Session.loadBuiltin
  split
  · exact .bind (runs_log environment filter m _) (.pure _ m)
  · exact .bind (runs_notices environment filter m _) (.pure _ m)

theorem runs_userFile? (source : RuleSource) :
    Runs ((session environment filter).userFile? source) m (m.files.userFile? environment source)
      m := by
  have henvironment : (session environment filter).environment.userFile? =
      environment.userFile? := rfl
  rw [Session.userFile?, Files.userFile?, henvironment]
  cases source.file? with
  | some file => exact .pure _ m
  | none =>
    cases environment.userFile? with
    | none => exact .pure _ m
    | some file =>
      refine .bind (runs_isFile m file) ?_
      rw [Option.none_or, Option.filter_some]
      exact .pure _ m

theorem yields_loadRules (source : RuleSource) :
    Yields ((session environment filter).loadRules source) m (m.files.rules environment source)
      m := by
  refine .bind (.lift (runs_loadBuiltin environment filter m source)) ?_
  refine .bind (.lift (runs_userFile? environment filter m source)) ?_
  rw [Files.rules, Files.userRules?]
  cases m.files.userFile? environment source with
  | none =>
    refine .bind (.lift (runs_log environment filter m _)) ?_
    refine .bind (.pure none m) ?_
    refine .bind (.lift (runs_notices environment filter m _)) ?_
    refine .bind (.lift (runs_notices environment filter m _)) ?_
    exact .pure _ m
  | some file =>
    have hload := (yields_loadFile environment filter m file).map some
    dsimp only
    cases hconfig : m.files.config file with
    | error e =>
      rw [hconfig] at hload
      exact .bind_error hload
    | ok config =>
      rw [hconfig] at hload
      refine .bind hload ?_
      refine .bind (.lift (runs_notices environment filter m _)) ?_
      refine .bind (.lift (runs_notices environment filter m _)) ?_
      exact .pure _ m

/-- What a run loads are the rules that the command line asks for. -/
theorem rules_of_loadRules {environment : Environment} {filter : Log.Filter} {m m' : Machine}
    {source : RuleSource} {c : Config}
    (h : ((session environment filter).loadRules source).run m = (.ok c, m')) :
    m.files.rules environment source = .ok c := by
  obtain ⟨errors', hrun⟩ := yields_loadRules environment filter m source m.errors
  exact (Prod.mk.inj (hrun.symm.trans h)).1

theorem yields_readEvent (file? : Option String) :
    Yields ((session environment filter).readEvent file?) m
      ((m.eventText file?).mapError (.readEvent file?)) m := by
  cases file? with
  | none =>
    refine .bind (.map Except.ok (.lift (runs_readInput m))) ?_
    show Yields _ m ((decodeText m.input).mapError (.readEvent none)) m
    dsimp only [Except.bind]
    cases decodeText m.input with
    | error e => exact .throw _ m
    | ok text => exact .pure text m
  | some file =>
    refine .bind (.lift (runs_readFile m file)) ?_
    rw [Machine.eventText, Files.text]
    dsimp only
    cases (m.files.read file).bind decodeText with
    | error e => exact .throw _ m
    | ok text => exact .pure text m

/-! ### Running a command -/

/-- The code with which a run ends, from what its command gives. -/
def exitCode : Except Failure UInt32 → UInt32
  | .ok code => code
  | .error _ => 1

/-- **What comes of a run is what comes of its command**, whatever part of the log is written. -/
theorem runs_run_of_command {line : CommandLine} {r : Except Failure UInt32} {m' : Machine}
    (h : ∀ filter, Yields ((session environment filter).command line) m r m') :
    Runs (run Machine.host environment line) m (exitCode r) m' := by
  unfold run
  dsimp only
  refine .bind (.forM fun u _ => runs_putError m _) ?_
  refine .bind (h _) ?_
  cases r with
  | ok code => exact .pure code m'
  | error e => exact .bind (runs_tell environment _ m' _ _) (.pure 1 m')

end Sessions

end Redaction.Cli
