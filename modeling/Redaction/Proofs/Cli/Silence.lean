import Redaction.Proofs.Cli.Loading

/-!
# What a quiet run writes to the error output

A quiet run tells the user nothing but the message of a failure. What else it writes are entries of
its log. `Logs` says that a command has one log, of which it writes what the filter admits, whatever
else is asked for. Silence is asked for by a directive without a name, and a directive with a name
goes before it; so what a quiet run writes of its log is let through by names (`run_quiet`).
-/

namespace Redaction

namespace Log

/-- A part that is passed over, as a line to the user. -/
def Unread.line (u : Unread) : String := s!"warning: {u.message}, ignoring it\n"

namespace Filter

variable {f : Filter} {d d' : Directive} {e : Entry} {source : Source}

theorem mem_insert (h : d' ∈ (f.insert d).directives) :
    d' = d ∨ d' ∈ f.directives ∧ d'.name? ≠ d.name? := by
  unfold insert at h
  dsimp only at h
  split at h
  · obtain ⟨old, hold, he⟩ := List.mem_map.mp h
    split at he
    · exact Or.inl he.symm
    · next hne => exact Or.inr (he ▸ ⟨hold, hne⟩)
  · next hany =>
    rcases List.mem_append.mp h with hold | hnew
    · refine Or.inr ⟨hold, fun he => hany ?_⟩
      exact List.any_eq_true.mpr ⟨d', hold, decide_eq_true he⟩
    · exact Or.inl (List.mem_singleton.mp hnew)

/-- The directive that decides is one of those that fit. -/
theorem mem_of_directive? (h : f.directive? source = some d) :
    d ∈ f.directives ∧ d.fits source = true := by
  have hbest : ∀ b ∈ f.directive? source, b ∈ f.directives.filter (·.fits source) := by
    unfold directive?
    refine List.foldlRecOn (motive := fun best => ∀ b ∈ best, b ∈ f.directives.filter _) _ _
      nofun fun best ih d hd b hb => ?_
    cases best with
    | none => exact Option.some.inj hb ▸ hd
    | some old =>
      dsimp only at hb
      split at hb
      · exact Option.some.inj hb ▸ hd
      · exact ih b hb
  exact List.mem_filter.mp (hbest d h)

theorem isEmpty_insert (f : Filter) (d : Directive) : (f.insert d).directives.isEmpty = false := by
  cases f with
  | mk ds pattern? =>
    unfold insert
    dsimp only
    cases ds with
    | nil => rfl
    | cons => split <;> rfl

/-- **Where silence is asked for, only directives with a name let entries through.** -/
theorem exists_named_of_admits (h : (f.insert ⟨none, .off⟩).admits e = true) :
    ∃ d ∈ f.directives, d.name? ≠ none ∧ d.fits e.source = true ∧
      d.threshold.admits e.level = true := by
  have hthreshold := (Bool.and_eq_true_iff.mp h).1
  rw [threshold, isEmpty_insert] at hthreshold
  cases hd : (f.insert ⟨none, .off⟩).directive? e.source with
  | none => rw [hd] at hthreshold; cases hthreshold
  | some d =>
    rw [hd] at hthreshold
    obtain ⟨hmem, hfits⟩ := mem_of_directive? hd
    rcases mem_insert hmem with rfl | ⟨hold, hname⟩
    · cases hthreshold
    · exact ⟨d, hold, hname, hfits, hthreshold⟩

/-- The entries that a filter admits, as lines. -/
def written (f : Filter) (entries : List Entry) : String :=
  String.join ((entries.filter f.admits).map Entry.line)

theorem written_append (f : Filter) (entries entries' : List Entry) :
    f.written (entries ++ entries') = f.written entries ++ f.written entries' := by
  rw [written, List.filter_append, List.map_append, String.join_append]
  rfl

end Filter

end Log

namespace Cli

theorem forM_putError {α : Type} (line : α → String) (as : List α) (m : Machine) (errors : String) :
    (as.forM fun a => Machine.host.putError (line a)) (m.withErrors errors) =
      ((), m.withErrors (errors ++ String.join (as.map line))) := by
  induction as generalizing errors with
  | nil =>
    rw [List.map_nil, String.join_nil, String.append_empty]
    rfl
  | cons a as ih =>
    rw [List.map_cons, String.join_cons, ← String.append_assoc]
    exact ih (errors ++ line a)

/-- Run in this environment, the command has one log, and leaves one machine with one result, for
each starting machine. The filter says which part of the log is written; what else the environment
asks to be logged makes no difference. -/
def Logs {α : Type} (environment : Environment)
    (act : Session (StateM Machine) → StateM Machine α) : Prop :=
  ∀ m : Machine, ∃ (log : List Log.Entry) (a : α) (m' : Machine), ∀ logSpec? filter errors,
    act (session { environment with logSpec? } filter) (m.withErrors errors) =
      (a, m'.withErrors (errors ++ filter.written log))

variable {α β : Type} {environment : Environment}

/-! ### Commands that do not fail -/

namespace Logs

/-- Only sessions in this environment count. -/
theorem congr {x y : Session (StateM Machine) → StateM Machine α} (h : Logs environment x)
    (hxy : ∀ logSpec? filter, y (session { environment with logSpec? } filter) =
      x (session { environment with logSpec? } filter)) : Logs environment y := by
  intro m
  obtain ⟨log, a, m', hx⟩ := h m
  exact ⟨log, a, m', fun logSpec? filter errors => (congrFun (hxy logSpec? filter) _).trans
    (hx logSpec? filter errors)⟩

theorem bind {x : Session (StateM Machine) → StateM Machine α}
    {f : Session (StateM Machine) → α → StateM Machine β} (h : Logs environment x)
    (h' : ∀ a, Logs environment fun s => f s a) : Logs environment fun s => x s >>= f s := by
  intro m
  obtain ⟨log, a, m', hx⟩ := h m
  obtain ⟨log', b, m'', hf⟩ := h' a m'
  refine ⟨log ++ log', b, m'', fun logSpec? filter errors => ?_⟩
  show (match x _ (m.withErrors errors) with | (a, m) => f _ a m) = _
  rw [hx, Log.Filter.written_append, ← String.append_assoc]
  exact hf logSpec? filter _

/-- What writes nothing to the error output, and does not look at it. -/
theorem silent {x : Session (StateM Machine) → StateM Machine α} (a : Machine → α)
    (next : Machine → Machine) (h : ∀ environment filter m errors,
      x (session environment filter) (m.withErrors errors) = (a m, (next m).withErrors errors)) :
    Logs environment x := by
  intro m
  refine ⟨[], a m, next m, fun _ filter errors => ?_⟩
  have hnone : errors ++ filter.written [] = errors := String.append_empty
  rw [h, hnone]

theorem pure (a : α) : Logs environment fun _ => Pure.pure a :=
  silent (fun _ => a) id fun _ _ _ _ => rfl

theorem log (entries : List Log.Entry) : Logs environment fun s => s.log entries :=
  fun m => ⟨entries, (), m, fun _ _ errors => forM_putError Log.Entry.line _ m errors⟩

theorem notices (ns : List Notice) : Logs environment fun s => s.notices ns := log _

end Logs

/-! ### Commands that may fail -/

/-- The same for a command that may fail. -/
abbrev LogsTrying {α : Type} (environment : Environment)
    (act : Session (StateM Machine) → ExceptT Failure (StateM Machine) α) : Prop :=
  Logs environment fun s => (act s).run

namespace LogsTrying

theorem pure (a : α) : LogsTrying environment fun _ => Pure.pure a := Logs.pure (Except.ok a)

theorem throw (e : Failure) : LogsTrying environment
    fun _ => (MonadExcept.throw e : ExceptT Failure (StateM Machine) α) :=
  Logs.pure (Except.error e)

theorem bind {x : Session (StateM Machine) → ExceptT Failure (StateM Machine) α}
    {f : Session (StateM Machine) → α → ExceptT Failure (StateM Machine) β}
    (h : LogsTrying environment x) (h' : ∀ a, LogsTrying environment fun s => f s a) :
    LogsTrying environment fun s => x s >>= f s := by
  refine Logs.bind (f := fun s => ExceptT.bindCont (f s)) h fun r => ?_
  cases r with
  | ok a => exact h' a
  | error e => exact Logs.pure (Except.error e)

/-- What would be done behind a failure does not count. -/
theorem throw_bind (e : Failure)
    (f : Session (StateM Machine) → α → ExceptT Failure (StateM Machine) β) :
    LogsTrying environment fun s => MonadExcept.throw e >>= f s :=
  Logs.pure (Except.error e)

theorem lift {x : Session (StateM Machine) → StateM Machine α} (h : Logs environment x) :
    LogsTrying environment fun s => (liftM (x s) : ExceptT Failure (StateM Machine) α) :=
  Logs.bind (f := fun _ a => Pure.pure (Except.ok a)) h fun a => Logs.pure (Except.ok a)

theorem map {x : Session (StateM Machine) → ExceptT Failure (StateM Machine) α} (g : α → β)
    (h : LogsTrying environment x) : LogsTrying environment fun s => g <$> x s := by
  refine Logs.congr (LogsTrying.bind h fun a => .pure (g a)) fun logSpec? filter => ?_
  exact congrArg ExceptT.run (map_eq_pure_bind g _)

end LogsTrying

/-! ### What a command logs -/

open Session

theorem logs_readFile (file : String) : Logs environment fun s => s.host.readFile file :=
  .silent (fun m => m.files.read file) id fun _ _ _ _ => rfl

theorem logs_readInput : Logs environment fun s => s.host.readInput :=
  .silent (fun m => m.input) id fun _ _ _ _ => rfl

theorem logs_isFile (file : String) : Logs environment fun s => s.host.isFile file :=
  .silent (fun m => m.files.isFile file) id fun _ _ _ _ => rfl

theorem logs_putOutput (text : String) : Logs environment fun s => s.host.putOutput text :=
  .silent (fun _ => ()) (fun m => { m with output := m.output ++ text }) fun _ _ _ _ => rfl

theorem logs_writeFile (file text : String) :
    Logs environment fun s => s.host.writeFile file text := by
  refine .silent (fun m => (m.writeFile file text).1) (fun m => (m.writeFile file text).2)
    fun _ _ m errors => ?_
  show (m.withErrors errors).writeFile file text = _
  rw [Machine.writeFile, Machine.writeFile]
  dsimp only [Machine.withErrors]
  cases m.files.write file (Text.Utf8.encode text.toList) <;> rfl

theorem logsTrying_loadFile (file : String) :
    LogsTrying environment fun s => s.loadFile file := by
  refine .bind (.lift (.notices _)) fun _ => ?_
  refine .bind (.lift (logs_readFile file)) fun bytes => ?_
  dsimp only
  cases bytes.bind decodeText with
  | error e => exact .throw_bind _ _
  | ok text =>
    refine .bind (.pure text) fun text => ?_
    refine .bind (.lift (.notices _)) fun _ => ?_
    cases (Config.load text).1 with
    | error e => exact .throw _
    | ok config => exact .bind (.lift (.notices _)) fun _ => .pure config

theorem logs_loadBuiltin (source : RuleSource) :
    Logs environment fun s => s.loadBuiltin source := by
  unfold loadBuiltin
  cases source.noDefaults with
  | true => exact .bind (.log _) fun _ => .pure _
  | false => exact .bind (.notices _) fun _ => .pure _

theorem logs_userFile? (source : RuleSource) :
    Logs environment fun s => s.userFile? source := by
  have huser : ∀ logSpec? filter,
      (session { environment with logSpec? } filter).environment.userFile? =
        environment.userFile? := fun _ _ => rfl
  cases hfile : source.file? with
  | some file =>
    refine .congr (.pure (some file)) fun logSpec? filter => ?_
    rw [userFile?, hfile]
  | none =>
    cases husual : environment.userFile? with
    | none =>
      refine .congr (.pure none) fun logSpec? filter => ?_
      rw [userFile?, hfile, huser, husual]
    | some file =>
      refine .congr (.bind (logs_isFile file)
        fun there => .pure (if there then some file else none)) fun logSpec? filter => ?_
      rw [userFile?, hfile, huser, husual]

theorem logsTrying_loadRules (source : RuleSource) :
    LogsTrying environment fun s => s.loadRules source := by
  have hmerge : ∀ (base : Config) (user : Option Config), LogsTrying environment fun s => do
      s.notices (base.mergeNotices user)
      s.notices ((base.merge user).disableNotices source.disabled)
      return (base.merge user).disable source.disabled := fun base user =>
    .bind (.lift (.notices _)) fun _ => .bind (.lift (.notices _)) fun _ => .pure _
  refine .bind (.lift (logs_loadBuiltin source)) fun base => ?_
  refine .bind (.lift (logs_userFile? source)) fun file? => ?_
  cases file? with
  | none => exact .bind (.lift (.log _)) fun _ => .bind (.pure none) (hmerge base)
  | some file => exact .bind (.map some (logsTrying_loadFile file)) (hmerge base)

theorem logsTrying_readEvent (file? : Option String) :
    LogsTrying environment fun s => s.readEvent file? := by
  cases file? with
  | none =>
    refine .bind (.map Except.ok (.lift logs_readInput)) fun bytes => ?_
    dsimp only
    cases bytes.bind decodeText with
    | error e => exact .throw _
    | ok text => exact .pure text
  | some file =>
    refine .bind (.lift (logs_readFile file)) fun bytes => ?_
    dsimp only
    cases bytes.bind decodeText with
    | error e => exact .throw _
    | ok text => exact .pure text

theorem logsTrying_writeEvent (file? : Option String) (text : String) :
    LogsTrying environment fun s => s.writeEvent file? text := by
  cases file? with
  | none => exact .lift (logs_putOutput _)
  | some file =>
    refine .bind (.lift (logs_writeFile file _)) fun r => ?_
    cases r with
    | error e => exact .throw _
    | ok => exact .pure ()

/-- The summary is the only message of a run that ends well, and a quiet run does without it. -/
theorem logsTrying_scrub (o : ScrubOptions) :
    LogsTrying environment fun s => s.scrub o true := by
  refine .bind (.lift (.log _)) fun _ => ?_
  refine .bind (logsTrying_loadRules o.source) fun config => ?_
  refine .bind (logsTrying_readEvent o.inputFile?) fun input => ?_
  refine .bind (.lift (.log _)) fun _ => ?_
  dsimp only
  cases config.scrubText input (if o.pretty then .pretty else .compact) with
  | error e => exact .throw_bind _ _
  | ok report =>
    refine .bind (.pure report) fun report => ?_
    refine .bind (.lift (.log _)) fun _ => ?_
    refine .bind (logsTrying_writeEvent o.output? report.output) fun _ => ?_
    exact .bind (.lift (.log _)) fun _ => .pure report

theorem logsTrying_rules (o : RulesOptions) : LogsTrying environment fun s => s.rules o := by
  refine .bind (logsTrying_loadRules o.source) fun config => ?_
  dsimp only
  cases config.compile with
  | error e => exact .throw_bind _ _
  | ok scrubber =>
    refine .bind (.lift (.notices _)) fun _ => ?_
    exact .lift (logs_putOutput _)

theorem logsTrying_command (debug : Bool) (command : Command) :
    LogsTrying environment fun s => s.command ⟨true, debug, command⟩ := by
  cases command with
  | scrub o => exact .bind (logsTrying_scrub o) fun report => .pure _
  | rules o => exact .bind (logsTrying_rules o) fun _ => .pure 0

theorem exists_of_return {x : ExceptT Failure (StateM Machine) α} {f : α → β} {m m' : Machine}
    {b : β} (h : (do return f (← x) : ExceptT Failure (StateM Machine) β).run m = (.ok b, m')) :
    ∃ a, f a = b := by
  have hrun : (do return f (← x) : ExceptT Failure (StateM Machine) β).run m =
      ((x.run m).1.map f, (x.run m).2) := by
    show (match x.run m with | (r, m) => (ExceptT.bindCont (fun a => Pure.pure (f a)) r :
      StateM Machine (Except Failure β)) m) = _
    rcases x.run m with ⟨_ | _, m'⟩ <;> rfl
  obtain ⟨hr, -⟩ := Prod.mk.inj (hrun.symm.trans h)
  cases hx : (x.run m).1 with
  | error e => rw [hx] at hr; cases hr
  | ok a => rw [hx] at hr; exact ⟨a, Except.ok.inj hr⟩

/-- A command that does not fail ends a run with 0 or 2. -/
theorem code_of_command {s : Session (StateM Machine)} {line : CommandLine} {m m' : Machine}
    {code : UInt32} (h : (s.command line).run m = (.ok code, m')) : code = 0 ∨ code = 2 := by
  obtain ⟨quiet, debug, command⟩ := line
  cases command with
  | scrub o =>
    obtain ⟨report, rfl⟩ := exists_of_return h
    unfold scrubExitCode
    split
    · exact Or.inr rfl
    · exact Or.inl rfl
  | rules o =>
    obtain ⟨-, rfl⟩ := exists_of_return h
    exact Or.inl rfl

/-! ### Quiet runs -/

theorem bind_apply {x : StateM Machine α} {f : α → StateM Machine β} {m m' : Machine} {a : α}
    (h : x m = (a, m')) : (x >>= f) m = f a m' := by
  show (match x m with | (a, m) => f a m) = _
  rw [h]

/-- How a run ends: with the code of its command, or with the message of a failure. -/
def ending (colours : Bool) : Except Failure UInt32 → UInt32 × String
  | .ok code => (code, "")
  | .error failure => (1, Tone.error.line failure.message colours)

/-- A quiet run is told by the log and the result of its command. -/
theorem run_eq_of_logs {environment : Environment} {m m' : Machine} {debug : Bool}
    {command : Command} {log : List Log.Entry} {r : Except Failure UInt32} {asked : Log.Filter}
    {unread : List Log.Unread} {logSpec? : Option String}
    (hparse : Log.Filter.parse (logSpec?.getD "warn") = (asked, unread))
    (h : ∀ filter errors, ((session { environment with logSpec? } filter).command
      ⟨true, debug, command⟩).run (m.withErrors errors) =
        (r, m'.withErrors (errors ++ filter.written log))) :
    run Machine.host { environment with logSpec? } ⟨true, debug, command⟩ m =
      ((ending environment.colours r).1, m'.withErrors (m.errors ++
        (String.join (unread.map Log.Unread.line) ++ (asked.insert ⟨none, .off⟩).written log) ++
          (ending environment.colours r).2)) := by
  have hof : Log.Filter.of logSpec? (Log.Threshold.ofFlags true debug) =
      (asked.insert ⟨none, .off⟩, unread) := by
    rw [Log.Filter.of, hparse]
    rfl
  unfold run
  dsimp only
  rw [hof, ← String.append_assoc]
  refine (bind_apply (forM_putError Log.Unread.line unread m m.errors)).trans ?_
  refine (bind_apply (h _ _)).trans ?_
  cases r with
  | ok code =>
    rw [ending, String.append_empty]
    rfl
  | error failure => rfl

/-- **What a quiet run writes to the error output.** It has one log, one exit code and at most one
message, that of the failure for which it ends with 1, whatever `logSpec?` asks to be logged. Before
the message it writes a warning for each part of `logSpec?` that cannot be read, and what directives
with a name let through of the log. So if all can be read, and names are given to sources only to
turn them off, then the run is silent but for the message. -/
theorem run_quiet (environment : Environment) (m : Machine) (debug : Bool) (command : Command) :
    ∃ (log : List Log.Entry) (code : UInt32) (message : String) (m' : Machine),
      ((code = 0 ∨ code = 2) ∧ message = "" ∨ code = 1 ∧ ∃ failure : Failure,
        message = Tone.error.line failure.message environment.colours) ∧
      ∀ logSpec? : Option String,
        let (asked, unread) := Log.Filter.parse (logSpec?.getD "warn")
        let silenced := asked.insert ⟨none, .off⟩
        let told := String.join (unread.map Log.Unread.line) ++ silenced.written log
        run Machine.host { environment with logSpec? } ⟨true, debug, command⟩ m =
            (code, m'.withErrors (m.errors ++ told ++ message)) ∧
          (∀ e, silenced.admits e = true → ∃ d ∈ asked.directives, d.name? ≠ none ∧
            d.fits e.source = true ∧ d.threshold.admits e.level = true) ∧
          (unread = [] → (∀ d ∈ asked.directives, d.name? ≠ none → d.threshold = .off) →
            told = "") := by
  have hcommand : LogsTrying environment fun s => s.command ⟨true, debug, command⟩ :=
    logsTrying_command debug command
  obtain ⟨log, r, m', hlog⟩ := hcommand m
  refine ⟨log, (ending environment.colours r).1, (ending environment.colours r).2, m', ?_,
    fun logSpec? => ?_⟩
  · cases r with
    | ok code => exact Or.inl ⟨code_of_command (hlog none .blank ""), rfl⟩
    | error failure => exact Or.inr ⟨rfl, failure, rfl⟩
  · generalize hparse : Log.Filter.parse (logSpec?.getD "warn") = parsed
    obtain ⟨asked, unread⟩ := parsed
    have hnamed : ∀ e, (asked.insert ⟨none, .off⟩).admits e = true → ∃ d ∈ asked.directives,
        d.name? ≠ none ∧ d.fits e.source = true ∧ d.threshold.admits e.level = true :=
      fun e => Log.Filter.exists_named_of_admits
    refine ⟨run_eq_of_logs hparse (hlog logSpec?), hnamed, fun hunread hoff => ?_⟩
    have hnone : log.filter (asked.insert ⟨none, .off⟩).admits = [] := by
      refine List.filter_eq_nil_iff.mpr fun e _ hadmits => ?_
      obtain ⟨d, hd, hname, -, hlevel⟩ := hnamed e hadmits
      rw [hoff d hd hname] at hlevel
      cases hlevel
    rw [hunread, Log.Filter.written, hnone]
    rfl

/-- A quiet run without the file of its rules says so and nothing else, also where directives
without a name ask for more. -/
theorem run_quiet_missing :
    let m : Machine := ⟨⟨[], []⟩, [], "", ""⟩
    let after (logSpec? : Option String) : UInt32 × Machine :=
      run Machine.host ⟨none, logSpec?, none, false⟩
        ⟨true, true, .rules ⟨true, ⟨some "r.yaml", false, []⟩⟩⟩ m
    let told : Machine := { m with errors :=
      "error: Failed to read config file r.yaml: No such file or directory (os error 2)\n" }
    after none = (1, told) ∧ after (some "trace,eventscrub_core=off") = (1, told) := by
  intro m after told
  obtain ⟨log, code, message, m', -, hrun⟩ := run_quiet ⟨none, none, none, false⟩ m true
    (.rules ⟨true, ⟨some "r.yaml", false, []⟩⟩)
  have hsilent : ∀ (logSpec? : Option String) (ds : List Log.Directive),
      Log.Filter.parse (logSpec?.getD "warn") = (⟨ds, none⟩, []) →
      (∀ d ∈ ds, d.name? ≠ none → d.threshold = .off) →
      after logSpec? = (code, m'.withErrors message) := by
    intro logSpec? ds hparse hoff
    have h := hrun logSpec?
    rw [hparse] at h
    obtain ⟨h, -, htold⟩ := h
    rw [htold rfl hoff] at h
    exact h.trans (congrArg (fun errors => (code, m'.withErrors errors)) String.empty_append)
  have hnone : after none = (1, told) := by decide +kernel
  refine ⟨hnone, ?_⟩
  have hplain := hsilent none [⟨none, .upTo .warn⟩] (by decide +kernel) (by decide)
  have hasked := hsilent (some "trace,eventscrub_core=off")
    [⟨none, .upTo .trace⟩, ⟨some "eventscrub_core".toList, .off⟩] (by decide +kernel) (by decide)
  exact hasked.trans (hplain.symm.trans hnone)

/-- A directive with a name lets a quiet run that ends well write a warning. -/
theorem run_quiet_named :
    let environment : Environment := ⟨none, some "eventscrub_core=warn", none, false⟩
    let o : ScrubOptions := ⟨none, none, false, false, ⟨none, true, ["nope"]⟩⟩
    let m : Machine := ⟨⟨[], []⟩, Text.Utf8.encode "\x7b\x7d".toList, "", ""⟩
    let after := run Machine.host environment ⟨true, false, .scrub o⟩ m
    after.1 = 0 ∧ after.2.output = "\x7b\x7d\n" ∧ after.2.errors =
      "[WARN  eventscrub_core::config] Rule 'nope' in `disable` list does not exist.\n" := by
  decide +kernel

end Cli

end Redaction
