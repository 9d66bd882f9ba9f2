import Redaction.Proofs.Cli.Files
import Redaction.Proofs.Cli.Loading
import Redaction.Proofs.Rules.Validation
import Redaction.Proofs.Scrubbing.Document

/-!
# All or nothing

A run of the scrub command reads its rules and its event, makes a report of them, and delivers the
text of the report (`runs_run`). Up to the delivery it has written nothing but messages, so a run
that ends earlier leaves the files and the output as they were. What is delivered and the exit code
depend on the report alone (`run_scrub`).
-/

namespace Redaction.Cli

def ScrubOptions.style (o : ScrubOptions) : Style := if o.pretty then .pretty else .compact

namespace Machine

/-- The report that a run delivers, or why there is none. -/
def report (m : Machine) (environment : Environment) (o : ScrubOptions) :
    Except Failure Report := do
  let config ← m.files.rules environment o.source
  let text ← (m.eventText o.inputFile?).mapError (.readEvent o.inputFile?)
  (config.scrubText text o.style).mapError .scrub

/-- Writes a line to a file or to the output. -/
def deliver (m : Machine) (file? : Option String) (text : String) :
    Except Failure Unit × Machine :=
  match file? with
  | none => (.ok (), { m with output := m.output ++ (text ++ "\n") })
  | some file =>
    let (r, m') := m.writeFile file (text ++ "\n")
    (r.mapError (.createOutput file), m')

/-- What comes of the scrub command. -/
def scrubbed (m : Machine) (environment : Environment) (o : ScrubOptions) :
    Except Failure Report × Machine :=
  match m.report environment o with
  | .error e => (.error e, m)
  | .ok report =>
    let (r, m') := m.deliver o.output? report.output
    (r.map fun _ => report, m')

/-- The exit code with which a run ends. -/
def exitCode (o : ScrubOptions) : Except Failure Report → UInt32
  | .ok report => Session.scrubExitCode o report
  | .error _ => 1

end Machine

variable (environment : Environment) (filter : Log.Filter) (m : Machine) (o : ScrubOptions)

/-! ### The steps of a run -/

theorem runs_writeFile (file text : String) :
    Runs (Machine.host.writeFile file text) m (m.writeFile file text).1
      (m.writeFile file text).2 := by
  intro errors
  refine ⟨errors, ?_⟩
  show (m.withErrors errors).writeFile file text = _
  rw [Machine.writeFile, Machine.writeFile]
  dsimp only [Machine.withErrors]
  cases m.files.write file (Text.Utf8.encode text.toList) <;> rfl

theorem yields_writeEvent (file? : Option String) (text : String) :
    Yields ((session environment filter).writeEvent file? text) m (m.deliver file? text).1
      (m.deliver file? text).2 := by
  cases file? with
  | none => exact .lift fun errors => ⟨errors, rfl⟩
  | some file =>
    refine .bind (.lift (runs_writeFile m file (text ++ "\n"))) ?_
    show Yields _ _ ((m.writeFile file (text ++ "\n")).1.mapError (.createOutput file))
      (m.writeFile file (text ++ "\n")).2
    cases (m.writeFile file (text ++ "\n")).1 with
    | ok => exact .pure () _
    | error e => exact .throw _ _

theorem runs_summarize (report : Report) :
    Runs ((session environment filter).summarize report) m () m := by
  unfold Session.summarize
  dsimp only
  split
  · exact runs_tell environment filter m _ _
  · exact runs_tell environment filter m _ _

/-- What is done behind the delivery writes nothing but messages. -/
theorem yields_closing (quiet : Bool) (report : Report) :
    Yields (do
      if !quiet then (session environment filter).summarize report
      (session environment filter).log
        [⟨.info, .scrubCommand, "Scrub operation completed."⟩]
      return report) m (.ok report) m := by
  have hlog := runs_log environment filter m [⟨.info, .scrubCommand, "Scrub operation completed."⟩]
  cases quiet with
  | true => exact .bind (.lift hlog) (.pure report m)
  | false =>
    refine .bind (.lift (runs_summarize environment filter m report)) ?_
    exact .bind (.lift hlog) (.pure report m)

theorem yields_scrub (quiet : Bool) :
    Yields ((session environment filter).scrub o quiet) m (m.scrubbed environment o).1
      (m.scrubbed environment o).2 := by
  have hrules := yields_loadRules environment filter m o.source
  have hevent := yields_readEvent environment filter m o.inputFile?
  rw [Machine.scrubbed, Machine.report, ScrubOptions.style]
  refine .bind (.lift (runs_log environment filter m _)) ?_
  cases hconfig : m.files.rules environment o.source with
  | error e =>
    rw [hconfig] at hrules
    exact .bind_error hrules
  | ok config =>
    rw [hconfig] at hrules
    refine .bind hrules ?_
    cases htext : (m.eventText o.inputFile?).mapError (Failure.readEvent o.inputFile?) with
    | error e =>
      rw [htext] at hevent
      exact .bind_error hevent
    | ok text =>
      rw [htext] at hevent
      refine .bind hevent ?_
      refine .bind (.lift (runs_log environment filter m _)) ?_
      dsimp only [Bind.bind, Except.bind]
      cases config.scrubText text (if o.pretty then .pretty else .compact) with
      | error e => exact .bind_error (.throw _ m)
      | ok report =>
        refine .bind (.pure report m) ?_
        refine .bind (.lift (runs_log environment filter m _)) ?_
        have hdeliver := yields_writeEvent environment filter m o.output? report.output
        show Yields _ m ((m.deliver o.output? report.output).1.map fun _ => report)
          (m.deliver o.output? report.output).2
        generalize m.deliver o.output? report.output = delivered at hdeliver ⊢
        obtain ⟨r, m'⟩ := delivered
        cases r with
        | error e => exact .bind_error hdeliver
        | ok =>
          refine .bind hdeliver ?_
          exact yields_closing environment filter m' quiet report

/-- **What comes of a run does not depend on what it logs and tells.** -/
theorem runs_run (quiet debug : Bool) :
    Runs (run Machine.host environment ⟨quiet, debug, .scrub o⟩) m
      (Machine.exitCode o (m.scrubbed environment o).1) (m.scrubbed environment o).2 := by
  have hscrub := fun filter => yields_scrub environment filter m o quiet
  generalize m.scrubbed environment o = scrubbed at hscrub ⊢
  obtain ⟨r, m'⟩ := scrubbed
  cases r with
  | error e =>
    have hcommand : ∀ filter, Yields ((session environment filter).command ⟨quiet, debug, .scrub o⟩)
        m (.error e) m' := fun filter => .bind_error (hscrub filter)
    exact runs_run_of_command environment m hcommand
  | ok report =>
    have hcommand : ∀ filter, Yields ((session environment filter).command ⟨quiet, debug, .scrub o⟩)
        m (.ok (Session.scrubExitCode o report)) m' :=
      fun filter => .bind (hscrub filter) (.pure _ m')
    exact runs_run_of_command environment m hcommand

/-- A failure of either kind counts for the exit code if failures are to. -/
theorem scrubExitCode_eq (report : Report) : Session.scrubExitCode o report =
    if o.failOnError = true ∧
      (0 < report.failures.redactorErrors ∨ 0 < report.failures.traversalErrors) then 2 else 0 := by
  have htotal : 0 < report.failures.total ↔
      0 < report.failures.redactorErrors ∨ 0 < report.failures.traversalErrors := by
    rw [Failures.total]
    omega
  rw [Session.scrubExitCode]
  simp only [Bool.and_eq_true, decide_eq_true_eq, htotal]

/-! ### What is delivered -/

section Delivery

variable {environment : Environment} {m : Machine} {o : ScrubOptions} {report : Report}
  {c : Config} {text : String} {event : Json} {file : String}

theorem scrubbed_of_error {e : Failure} (h : m.report environment o = .error e) :
    m.scrubbed environment o = (.error e, m) := by
  rw [Machine.scrubbed, h]

theorem scrubbed_of_none (h : m.report environment o = .ok report) (ho : o.output? = none) :
    m.scrubbed environment o =
      (.ok report, { m with output := m.output ++ (report.output ++ "\n") }) := by
  rw [Machine.scrubbed, h, ho]
  rfl

theorem scrubbed_of_not_written (h : m.report environment o = .ok report)
    (ho : o.output? = some file) {e : FileError}
    (hw : m.files.write file (Text.Utf8.encode (report.output ++ "\n").toList) = .error e) :
    m.scrubbed environment o = (.error (.createOutput file e), m) := by
  rw [Machine.scrubbed, h, ho]
  dsimp only [Machine.deliver]
  rw [Machine.writeFile, hw]
  rfl

theorem scrubbed_of_written (h : m.report environment o = .ok report)
    (ho : o.output? = some file) {files : Files}
    (hw : m.files.write file (Text.Utf8.encode (report.output ++ "\n").toList) = .ok files) :
    m.scrubbed environment o = (.ok report, { m with files }) := by
  rw [Machine.scrubbed, h, ho]
  dsimp only [Machine.deliver]
  rw [Machine.writeFile, hw]
  rfl

/-- There is no report if there are no rules, no text or no event. -/
theorem exists_report_eq_error (h : (∃ e, m.files.rules environment o.source = .error e) ∨
    (∃ e, m.eventText o.inputFile? = .error e) ∨
    ∃ text, m.eventText o.inputFile? = .ok text ∧ ¬ ∃ event, Json.Document text event) :
    ∃ e, m.report environment o = .error e := by
  rw [Machine.report]
  cases hc : m.files.rules environment o.source with
  | error e => exact ⟨e, rfl⟩
  | ok c =>
    cases htext : m.eventText o.inputFile? with
    | error e => exact ⟨_, rfl⟩
    | ok text =>
      have hnone : ¬ ∃ event, Json.Document text event := by
        rcases h with ⟨e, he⟩ | ⟨e, he⟩ | ⟨text', htext', hnone⟩
        · rw [hc] at he
          cases he
        · rw [htext] at he
          cases he
        · rw [htext] at htext'
          obtain rfl := Except.ok.inj htext'
          exact hnone
      have hparse : Json.parse? text = none := Json.parse?_eq_none_iff.mpr hnone
      have hcompile := Config.compile_of_compiles (Files.compiles_rules hc)
      refine ⟨.scrub .notJson, ?_⟩
      show (c.scrubText text o.style).mapError Failure.scrub = _
      rw [Config.scrubText_of_not_json hcompile hparse]
      rfl

theorem report_eq_ok (hc : m.files.rules environment o.source = .ok c)
    (htext : m.eventText o.inputFile? = .ok text) (hevent : Json.Document text event) :
    ∃ s, c.compile = .ok s ∧ c.scrubText text o.style = .ok (Config.report s o.style event) ∧
      m.report environment o = .ok (Config.report s o.style event) := by
  have hcompile := Config.compile_of_compiles (Files.compiles_rules hc)
  have hscrub := Config.scrubText_of_parse hcompile (Json.parse?_eq_some_iff.mpr hevent) o.style
  refine ⟨_, hcompile, hscrub, ?_⟩
  rw [Machine.report, hc, htext]
  show (c.scrubText text o.style).mapError Failure.scrub = _
  rw [hscrub]
  rfl

end Delivery

/-- **The scrub command is all or nothing, and its exit code tells the truth.** Whatever the
environment and the machine are, quiet and debugging runs have the same exit code and leave the same
machine but for its error output. If there is a rule file without a valid configuration, if there is
no text to be read, or if it is no document, then the code is 1 and nothing has been written. Else
there is a report, and its text and a line feed are all that is written: to the output if no file is
named, and the file is read back as that text if one is. A file that cannot be made is the only
failure left. If all is delivered, the code says whether a failure of either kind was counted while
the event was scrubbed, if it is to. -/
theorem run_scrub (environment : Environment) (m : Machine) (o : ScrubOptions) :
    ∃ (code : UInt32) (m' : Machine), (∀ quiet debug, ∃ errors,
        run Machine.host environment ⟨quiet, debug, .scrub o⟩ m = (code, m'.withErrors errors)) ∧
      ((∃ file, m.files.userFile? environment o.source = some file ∧
            ¬ ∃ text c, m.files.text file = .ok text ∧ Config.ofYaml text = .ok c ∧
              c.problems = []) ∨
          (∃ e, m.eventText o.inputFile? = .error e) ∨
          (∃ text, m.eventText o.inputFile? = .ok text ∧ ¬ ∃ event, Json.Document text event) →
        code = 1 ∧ m'.output = m.output ∧ m'.files = m.files) ∧
      ∀ c text event, m.files.rules environment o.source = .ok c →
        m.eventText o.inputFile? = .ok text → Json.Document text event →
        ∃ s report, c.compile = .ok s ∧ c.scrubText text o.style = .ok report ∧
          report.output = o.style.write (s.scrub event .empty).1 ∧
          report.failures = (s.scrub event .empty).2.failures ∧
          let line := report.output ++ "\n"
          let ending : UInt32 := if o.failOnError = true ∧
            (0 < report.failures.redactorErrors ∨ 0 < report.failures.traversalErrors) then 2 else 0
          (o.output? = none → code = ending ∧ m'.output = m.output ++ line ∧
            m'.files = m.files) ∧
          ∀ file, o.output? = some file → m'.output = m.output ∧
            let content := Text.Utf8.encode line.toList
            (∀ e, m.files.write file content = .error e → code = 1 ∧ m'.files = m.files) ∧
            ∀ files, m.files.write file content = .ok files → code = ending ∧ m'.files = files ∧
              files.read file = .ok content ∧
              ∀ l, m.files.target file ≠ .ok l → files.node? l = m.files.node? l := by
  refine ⟨Machine.exitCode o (m.scrubbed environment o).1, (m.scrubbed environment o).2,
    fun quiet debug => runs_run environment m o quiet debug m.errors, fun h => ?_,
    fun c text event hc htext hevent => ?_⟩
  · rw [← Files.exists_rules_eq_error_iff] at h
    obtain ⟨e, he⟩ := exists_report_eq_error h
    rw [scrubbed_of_error he]
    exact ⟨rfl, rfl, rfl⟩
  · obtain ⟨s, hcompile, hscrub, hrun⟩ := report_eq_ok hc htext hevent
    have hcode := scrubExitCode_eq o (Config.report s o.style event)
    refine ⟨s, _, hcompile, hscrub, rfl, rfl, fun ho => ?_,
      fun file ho => ⟨?_, fun e hw => ?_, fun files hw => ?_⟩⟩
    · rw [scrubbed_of_none hrun ho]
      exact ⟨hcode, rfl, rfl⟩
    · cases hw : m.files.write file
          (Text.Utf8.encode ((Config.report s o.style event).output ++ "\n").toList) with
      | error e => rw [scrubbed_of_not_written hrun ho hw]
      | ok files => rw [scrubbed_of_written hrun ho hw]
    · rw [scrubbed_of_not_written hrun ho hw]
      exact ⟨rfl, rfl⟩
    · rw [scrubbed_of_written hrun ho hw]
      exact ⟨hcode, rfl, Files.read_write hw, fun l hl => Files.node?_write hw hl⟩

/-- The file of the event may be the one that is written. A redactor that fails and a rule that is
given up each end a run with the code 2 if failures are to count, after the event has been written
all the same. A rule that ends with the wildcard and a text that breaks off end it with 1. -/
theorem run_scrub_codes :
    let environment : Environment := ⟨none, none, none, false⟩
    let text := "\x7b\"a\":null\x7d"
    let inPlace := Machine.holding [("e.json", text)] ""
    let after := run Machine.host environment ⟨true, false,
      .scrub ⟨some "e.json", some "e.json", true, true, ⟨none, false, []⟩⟩⟩ inPlace
    let invalid := Machine.holding [("r.yaml", "rules:\n- path: c.[]"), ("e.json", text)] ""
    let refused := run Machine.host environment ⟨true, false,
      .scrub ⟨some "e.json", some "e.json", true, true, ⟨some "r.yaml", true, []⟩⟩⟩ invalid
    let ending (failOnError : Bool) (m : Machine) :=
      let after := run Machine.host environment
        ⟨true, false, .scrub ⟨none, none, false, failOnError, ⟨some "r.yaml", true, []⟩⟩⟩ m
      (after.1, after.2.output)
    let failing := Machine.holding
      [("r.yaml", "rules: [{path: c, action: scrub_cookies, all_keys: true}]")]
      "\x7b\"c\":\"alpha\"\x7d"
    let limited := Machine.holding
      [("r.yaml", "rules:\n- path: c.[].v\nsettings: {max_targets_per_rule: 1}")]
      "\x7b\"c\":[\x7b\"v\":true\x7d,\x7b\"v\":false\x7d]\x7d"
    let broken := Machine.holding [("r.yaml", "rules:\n- path: c")] "\x7b\"c\":1"
    let marked := "\x7b\"c\":\"ERROR WHEN SCRUBBING\"\x7d\n"
    let half := "\x7b\"c\":[\x7b\"v\":\"[Scrubbed]\"\x7d,\x7b\"v\":false\x7d]\x7d\n"
    (after.1 = 0 ∧ after.2.output = "" ∧ after.2.files.read "e.json" =
      .ok (Text.Utf8.encode "\x7b\n  \"a\": null\n\x7d\n".toList)) ∧
    (refused.1 = 1 ∧ refused.2.output = "" ∧ refused.2.files = invalid.files) ∧
    ending true failing = (2, marked) ∧ ending false failing = (0, marked) ∧
    ending true limited = (2, half) ∧ ending false limited = (0, half) ∧
    ending true broken = (1, "") := by
  intro environment text inPlace after invalid refused ending failing limited broken marked half
  refine ⟨?_, ?_, ?_⟩
  · let o : ScrubOptions := ⟨some "e.json", some "e.json", true, true, ⟨none, false, []⟩⟩
    have hdocument : Json.Document text (.object [("a", .null)]) :=
      Json.document_of_compact
        (.object (by decide) (List.forall_mem_singleton.mpr (.null 126))) (by decide +kernel)
    have htext : inPlace.eventText (some "e.json") = .ok text := by decide +kernel
    obtain ⟨code, m', hruns, -, hdone⟩ := run_scrub environment inPlace o
    obtain ⟨s, report, hs, -, hwritten, hfailures, -, hfile⟩ :=
      hdone .builtin text _ rfl htext hdocument
    obtain rfl := Except.ok.inj (hs.symm.trans (Config.compile_of_compiles Config.compiles_builtin))
    obtain ⟨houtput, -, hok⟩ := hfile "e.json" rfl
    rw [hwritten, hfailures] at hok
    have hwrite : inPlace.files.write "e.json"
        (Text.Utf8.encode "\x7b\n  \"a\": null\n\x7d\n".toList) = .ok ⟨[], [(["e.json"], .file
          (Text.Utf8.encode "\x7b\n  \"a\": null\n\x7d\n".toList))]⟩ := by decide +kernel
    obtain ⟨hcode, hfiles, hback, -⟩ := hok _ hwrite
    obtain ⟨errors, hrun⟩ := hruns true false
    have hafter : after = (code, m'.withErrors errors) := hrun
    rw [hafter]
    exact ⟨hcode, houtput, by rw [Machine.withErrors, hfiles]; exact hback⟩
  · have hinvalid : ¬ ∃ text c, invalid.files.text "r.yaml" = .ok text ∧
        Config.ofYaml text = .ok c ∧ c.problems = [] := by
      rintro ⟨text, c, htext, hc, hproblems⟩
      have hread : invalid.files.text "r.yaml" = .ok "rules:\n- path: c.[]" := by decide +kernel
      obtain rfl := Except.ok.inj (hread.symm.trans htext)
      have hconfig : Config.ofYaml "rules:\n- path: c.[]" =
          .ok ⟨[⟨none, none, "c.[]", .scrub, [], false⟩], none⟩ := by decide +kernel
      obtain rfl := Except.ok.inj (hconfig.symm.trans hc)
      exact absurd hproblems (by decide +kernel)
    obtain ⟨code, m', hruns, hkept, -⟩ := run_scrub environment invalid
      ⟨some "e.json", some "e.json", true, true, ⟨some "r.yaml", true, []⟩⟩
    obtain ⟨hcode, houtput, hfiles⟩ := hkept (.inl ⟨"r.yaml", by decide +kernel, hinvalid⟩)
    obtain ⟨errors, hrun⟩ := hruns true false
    have hrefused : refused = (code, m'.withErrors errors) := hrun
    rw [hrefused]
    exact ⟨hcode, houtput, hfiles⟩
  · -- what comes of a run that writes to the output
    have hending : ∀ (failOnError : Bool) (m : Machine) (input : String) (c : Config) (s : Scrubber)
        (event : Json), c.compile = .ok s → m.output = "" →
        m.files.rules environment ⟨some "r.yaml", true, []⟩ = .ok c →
        m.eventText none = .ok input → Json.Document input event →
        let failures := (s.scrub event .empty).2.failures
        ending failOnError m =
          (if failOnError = true ∧ (0 < failures.redactorErrors ∨ 0 < failures.traversalErrors)
            then 2 else 0, Json.compact (s.scrub event .empty).1 ++ "\n") := by
      intro failOnError m input c s event hs hm hc htext hdocument
      obtain ⟨code, m', hruns, -, hdone⟩ := run_scrub environment m
        ⟨none, none, false, failOnError, ⟨some "r.yaml", true, []⟩⟩
      obtain ⟨s', report, hs', -, hwritten, hfailures, hnone, -⟩ :=
        hdone c input event hc htext hdocument
      obtain rfl := Except.ok.inj (hs.symm.trans hs')
      obtain ⟨hcode, houtput, -⟩ := hnone rfl
      rw [hwritten, hm, String.empty_append] at houtput
      obtain ⟨errors, hrun⟩ := hruns true false
      dsimp only [ending]
      rw [hrun, ← hfailures, hcode]
      exact Prod.ext rfl houtput
    have hfailing := fun failOnError => hending failOnError failing _
      ⟨[⟨none, none, "c", .scrubCookies, [], true⟩], none⟩
      ⟨[⟨none, .parse "c", .cookies .all⟩], none⟩ (.object [("c", .string "alpha")]) rfl rfl
      (by decide +kernel) (by decide +kernel) (Json.document_of_compact
        (.object (by decide) (List.forall_mem_singleton.mpr (.string 126 "alpha"))) rfl)
    have hflags : Json.Fits 126
        (.array [.object [("v", .bool true)], .object [("v", .bool false)]]) :=
      .array (List.forall_mem_cons.mpr
        ⟨.object (by decide) (List.forall_mem_singleton.mpr (.bool 124 true)),
          List.forall_mem_singleton.mpr
            (.object (by decide) (List.forall_mem_singleton.mpr (.bool 124 false)))⟩)
    have hlimited := fun failOnError => hending failOnError limited _
      ⟨[⟨none, none, "c.[].v", .scrub, [], false⟩], some 1⟩
      ⟨[⟨none, .parse "c.[].v", .scrub⟩], some 1⟩
      (.object [("c", .array [.object [("v", .bool true)], .object [("v", .bool false)]])]) rfl rfl
      (by decide +kernel) (by decide +kernel) (Json.document_of_compact
        (.object (by decide) (List.forall_mem_singleton.mpr hflags)) rfl)
    refine ⟨(hfailing true).trans ?_, (hfailing false).trans ?_, (hlimited true).trans ?_,
      (hlimited false).trans ?_, ?_⟩
    · decide +kernel
    · decide +kernel
    · decide +kernel
    · decide +kernel
    · have hbroken : ¬ ∃ event, Json.Document "\x7b\"c\":1" event :=
        Json.parse?_eq_none_iff.mp (by decide +kernel)
      obtain ⟨code, m', hruns, hrefused, -⟩ := run_scrub environment broken
        ⟨none, none, false, true, ⟨some "r.yaml", true, []⟩⟩
      obtain ⟨hcode, houtput, -⟩ := hrefused (.inr (.inr ⟨_, by decide +kernel, hbroken⟩))
      obtain ⟨errors, hrun⟩ := hruns true false
      dsimp only [ending]
      rw [hrun]
      exact Prod.ext hcode houtput

end Redaction.Cli
