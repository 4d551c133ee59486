import Mathlib
import Galley.CommandLine
import Galley.Proofs.Failure
import Galley.Proofs.Manuscript.Loading

/-! # How a call ends -/

namespace Galley

/-! ## Failures after loading -/

theorem LengthGuide.aspectRatio_failsWith (guide : LengthGuide) (width height : Binary64) :
    FailsWith Failure.OfContent (guide.aspectRatio width height) := by
  unfold aspectRatio
  split
  · exact FailsWith.error trivial
  · refine .bind (.mapError fun _ => trivial) fun quotient => ?_
    refine .bind (.mapError fun _ => trivial) fun ratio => ?_
    split
    · exact FailsWith.error trivial
    · exact .ok _

theorem LengthGuide.price_failsWith (guide : LengthGuide) (ratio : Binary64) (mode : ColumnMode) :
    FailsWith Failure.OfContent (guide.price ratio mode) := by
  cases mode with
  | single => exact .bind (.mapError fun _ => trivial) fun share => .ok _
  | double => exact .bind (.mapError fun _ => trivial) fun share => .ok _
  | other label => exact FailsWith.error trivial

theorem LengthGuide.wordEquivalent_failsWith (guide : LengthGuide) (ratio : Binary64)
    (mode : ColumnMode) : FailsWith Failure.OfContent (guide.wordEquivalent ratio mode) := by
  unfold wordEquivalent
  split
  · exact FailsWith.error trivial
  · exact .bind (guide.price_failsWith ratio mode) fun _ => .mapError fun _ => trivial

theorem LengthGuide.estimateAll_failsWith (guide : LengthGuide) (images : List Image)
    (figures : List Figure) :
    FailsWith Failure.OfContent (guide.estimateAll images figures) := by
  refine .bind (.mapError fun _ => trivial) fun pairs => .mapM (fun pair => ?_) pairs
  exact .bind (guide.aspectRatio_failsWith _ _) fun ratio =>
    .bind (guide.wordEquivalent_failsWith ratio _) fun words => .ok _

theorem Manuscript.report_failsWith (manuscript : Manuscript) (guide : LengthGuide)
    (summary : WordCounter.Summary) :
    FailsWith Failure.OfContent (manuscript.report guide summary) :=
  .bind (.mapError fun _ => trivial) fun images =>
    .bind (guide.estimateAll_failsWith images _) fun _ => .ok _

/-! ## Records -/

/-- What the channel writes on a status of the word counter: one warning, unless it is 0. -/
def warningText (counter : WordCounter) (status : Int) (errors : String) : String :=
  if status = 0 then ""
  else "WARNING: " ++ counter.command ++ " exited with status " ++ Text.integer status ++ ": " ++
    String.ofList (Text.trim errors.toList) ++ "\n"

theorem Channel.default_write_warning (message : String) :
    Channel.default.write (.warning message) = "WARNING: " ++ message ++ "\n" := by
  simp [Channel.write, Channel.default, Channel.configure, Channel.threshold, Record.warning,
    Record.warningLevel, Record.line, Record.levelName]

theorem Channel.default_write_error (message : String) :
    Channel.default.write (.error message) = "ERROR: " ++ message ++ "\n" := by
  simp [Channel.write, Channel.default, Channel.configure, Channel.threshold, Record.error,
    Record.warningLevel, Record.errorLevel, Record.line, Record.levelName]

theorem writeAll_warnings (counter : WordCounter) (status : Int) (errors : String) :
    Channel.default.writeAll (counter.warnings status errors) =
      warningText counter status errors := by
  by_cases h : status = 0
  · simp [Channel.writeAll, WordCounter.warnings, warningText, h]
  · simp [Channel.writeAll, WordCounter.warnings, warningText, h, Channel.default_write_warning,
      String.append_assoc]
    rfl

/-! ## Starting the word counter -/

/-- Both files of the manuscript can be read, and the source is at `texPath`. -/
def Readable (read : FileReader) (fileName : String) (texPath : Path) : Prop :=
  ∃ logPath, Manuscript.Located fileName texPath logPath ∧
    (∃ source, read texPath = .ok source) ∧ ∃ log, read logPath = .ok log

/-- The commands that a run starts, and what it writes about them: the word counter is started on
the source when both files have been read, and never otherwise. -/
inductive Starts (setting : Setting) (fileName : String) : List (List String) → String → Prop where
  | never : (∀ texPath, ¬ Readable setting.read fileName texPath) →
      Starts setting fileName [] ""
  | inVain {texPath : Path} {reason : String} : Readable setting.read fileName texPath →
      setting.answer = .unavailable reason →
      Starts setting fileName [setting.counter.commandLine texPath] ""
  | once {texPath : Path} {output : String} {status : Int} {errors : String} :
      Readable setting.read fileName texPath → setting.answer = .finished output status errors →
      Starts setting fileName [setting.counter.commandLine texPath]
        (warningText setting.counter status errors)

theorem WordCounter.sumCount_failsWith (output : String) :
    FailsWith Failure.OfContent (WordCounter.sumCount output) := by
  unfold WordCounter.sumCount
  split
  · exact FailsWith.error trivial
  · split
    · exact FailsWith.error trivial
    · exact .ok _

theorem report_of_error {setting : Setting} {fileName : String} {failure : Failure}
    (h : Manuscript.load setting.read fileName = .error failure) :
    setting.report fileName = .fail failure := by
  rw [Setting.report, h]

theorem report_of_ok {setting : Setting} {fileName : String} {manuscript : Manuscript}
    (h : Manuscript.load setting.read fileName = .ok manuscript) :
    setting.report fileName = (setting.counter.run manuscript.texPath setting.answer).andThen
      (manuscript.report setting.guide) := by
  rw [Setting.report, h]

theorem not_readable_of_load_error {read : FileReader} {fileName : String} {failure : Failure}
    (h : Manuscript.load read fileName = .error failure) (texPath : Path) :
    ¬ Readable read fileName texPath := by
  rintro ⟨logPath, hlocated, ⟨source, hsource⟩, log, hlog⟩
  rw [Manuscript.load_of_located hlocated, Manuscript.readSource, hsource, Manuscript.readLog,
    hlog] at h
  cases h

theorem readable_of_load_ok {read : FileReader} {fileName : String} {manuscript : Manuscript}
    (h : Manuscript.load read fileName = .ok manuscript) :
    Readable read fileName manuscript.texPath := by
  have hloads := Manuscript.load_loads read fileName
  rw [h] at hloads
  cases hloads with
  | loaded hlocated hsource hlog => exact ⟨_, hlocated, ⟨_, hsource⟩, _, hlog⟩

/-- The stages of a run, and what is left behind where it ends. -/
inductive Setting.Runs (setting : Setting) (fileName : String) : Run Report → Prop where
  | notLoaded {failure : Failure} :
      Manuscript.load setting.read fileName = .error failure →
      Runs setting fileName (.fail failure)
  | notStarted {manuscript : Manuscript} {reason : String} :
      Manuscript.load setting.read fileName = .ok manuscript →
      setting.answer = .unavailable reason →
      Runs setting fileName ⟨[setting.counter.commandLine manuscript.texPath], [],
        .error (.unavailable (.counter setting.counter.command reason))⟩
  | started {manuscript : Manuscript} {output errors : String} {status : Int} :
      Manuscript.load setting.read fileName = .ok manuscript →
      setting.answer = .finished output status errors →
      Runs setting fileName ⟨[setting.counter.commandLine manuscript.texPath],
        setting.counter.warnings status errors,
        ((WordCounter.sumCount output).map fun words =>
          (⟨output, words⟩ : WordCounter.Summary)).bind (manuscript.report setting.guide)⟩

theorem Setting.report_runs (setting : Setting) (fileName : String) :
    setting.Runs fileName (setting.report fileName) := by
  cases hload : Manuscript.load setting.read fileName with
  | error failure =>
      rw [report_of_error hload]
      exact .notLoaded hload
  | ok manuscript =>
      rw [report_of_ok hload]
      cases hanswer : setting.answer with
      | unavailable reason => exact .notStarted hload hanswer
      | finished output status errors => exact .started hload hanswer

namespace Setting.Runs

variable {setting : Setting} {fileName : String} {run : Run Report}
  (h : setting.Runs fileName run)
include h

theorem starts :
    Starts setting fileName run.commands (Channel.default.writeAll run.records) := by
  cases h with
  | notLoaded hload => exact .never (not_readable_of_load_error hload)
  | notStarted hload hanswer => exact .inVain (readable_of_load_ok hload) hanswer
  | started hload hanswer =>
      rw [writeAll_warnings]
      exact .once (readable_of_load_ok hload) hanswer

/-- A report needs both files and an answer of the word counter. -/
theorem exists_finished {report : Report} (hreport : run.outcome = .ok report) :
    ∃ texPath output status errors, Readable setting.read fileName texPath ∧
      setting.answer = .finished output status errors ∧
      run.commands = [setting.counter.commandLine texPath] ∧
      Channel.default.writeAll run.records = warningText setting.counter status errors := by
  cases h with
  | notLoaded hload => cases hreport
  | notStarted hload hanswer => cases hreport
  | started hload hanswer =>
      exact ⟨_, _, _, _, readable_of_load_ok hload, hanswer, rfl, writeAll_warnings _ _ _⟩

/-- A notice comes up before anything is started, and only on a source that is not there. -/
theorem missing_of_notice {cause : Notice} (hnotice : run.outcome = .error (.notice cause)) :
    run = .fail (.notice cause) ∧
      ∃ texPath logPath, Manuscript.Located fileName texPath logPath ∧
        Manuscript.Missing setting.read texPath ∧ cause = .missingSource texPath := by
  cases h with
  | notLoaded hload =>
      obtain rfl := Except.error.inj hnotice
      have hloads := Manuscript.load_loads setting.read fileName
      rw [hload] at hloads
      cases hloads with
      | sourceMissing hlocated hmissing => exact ⟨rfl, _, _, hlocated, hmissing, rfl⟩
  | notStarted hload hanswer => cases hnotice
  | @started manuscript output _ _ hload hanswer =>
      have hcontent : FailsWith Failure.OfContent
          (((WordCounter.sumCount output).map fun words =>
            (⟨output, words⟩ : WordCounter.Summary)).bind (manuscript.report setting.guide)) :=
        .bind (.map (WordCounter.sumCount_failsWith output)) fun summary =>
          manuscript.report_failsWith setting.guide summary
      exact absurd (hcontent _ hnotice) id

end Setting.Runs

namespace CommandLine

/-! ## Endings -/

inductive Ending where
  | notice
  | report
  | failure

/-- What a call on a file name writes and starts, and its status, for each way to end. -/
inductive EndsIn (setting : Setting) : Option String → Execution → Ending → Prop where
  | usage : EndsIn setting none ⟨Notice.usage.message ++ "\n", "", [], .ok 0⟩ .notice
  | missingSource {fileName : String} {texPath logPath : Path} :
      Manuscript.Located fileName texPath logPath → Manuscript.Missing setting.read texPath →
      EndsIn setting (some fileName)
        ⟨(Notice.missingSource texPath).message ++ "\n", "", [], .ok 0⟩ .notice
  | report {fileName : String} {texPath : Path} {output : String} {status : Int}
      {errors : String} {report : Report} {text : String} :
      Readable setting.read fileName texPath → setting.answer = .finished output status errors →
      (setting.report fileName).outcome = .ok report → report.text = .ok text →
      EndsIn setting (some fileName) ⟨text, warningText setting.counter status errors,
        [setting.counter.commandLine texPath], .ok 0⟩ .report
  | failure {fileName : String} {commands : List (List String)} {warning : String}
      {failure : Failure} :
      Starts setting fileName commands warning → failure.Fatal →
      (setting.report fileName).outcome = .error failure →
      EndsIn setting (some fileName)
        ⟨"", warning ++ "ERROR: " ++ failure.message ++ "\n", commands, .ok 1⟩ .failure

namespace EndsIn

variable {setting : Setting} {fileName? : Option String} {execution : Execution}

theorem status_eq {ending : Ending} (h : EndsIn setting fileName? execution ending) :
    execution.status = .ok (match ending with
      | .notice | .report => 0
      | .failure => 1) := by
  cases h <;> rfl

theorem commands_notice (h : EndsIn setting fileName? execution .notice) :
    execution.commands = [] := by
  cases h <;> rfl

theorem commands_report (h : EndsIn setting fileName? execution .report) :
    execution.commands ≠ [] := by
  cases h
  simp

/-- The status tells a failure from the other endings, and the commands tell those apart. -/
theorem unique {ending other : Ending} (h : EndsIn setting fileName? execution ending)
    (h' : EndsIn setting fileName? execution other) : ending = other := by
  have hstatus := h.status_eq.symm.trans h'.status_eq
  cases ending with
  | notice =>
      cases other with
      | notice => rfl
      | report => exact absurd h.commands_notice h'.commands_report
      | failure => simp at hstatus
  | report =>
      cases other with
      | notice => exact absurd h'.commands_notice h.commands_report
      | report => rfl
      | failure => simp at hstatus
  | failure =>
      cases other with
      | notice => simp at hstatus
      | report => simp at hstatus
      | failure => rfl

end EndsIn

theorem ofRun_fail_notice (cause : Notice) :
    ofRun (.fail (.notice cause)) = ⟨cause.message ++ "\n", "", [], .ok 0⟩ :=
  rfl

theorem ofRun_of_fatal {run : Run Report} {failure : Failure} (hfatal : failure.Fatal)
    (h : run.outcome = .error failure) :
    ofRun run = ⟨"", Channel.default.writeAll run.records ++ "ERROR: " ++ failure.message ++ "\n",
      run.commands, .ok 1⟩ := by
  rw [ofRun, h]
  cases failure with
  | notice cause => exact absurd hfatal id
  | fault cause => exact absurd hfatal id
  | unavailable cause =>
      simp only [Channel.default_write_error, Failure.message, String.append_assoc]
  | mismatch cause =>
      simp only [Channel.default_write_error, Failure.message, String.append_assoc]

theorem ofRun_ends (setting : Setting) (fileName : String) :
    (∃ fault, (ofRun (setting.report fileName)).status = .error fault ∧
        (ofRun (setting.report fileName)).output = "") ∨
      ∃ ending, EndsIn setting (some fileName) (ofRun (setting.report fileName)) ending := by
  have hruns := setting.report_runs fileName
  have hstarts := hruns.starts
  cases houtcome : (setting.report fileName).outcome with
  | ok report =>
      cases htext : report.text with
      | error fault =>
          left
          exact ⟨fault, by simp [ofRun, houtcome, htext], by simp [ofRun, houtcome, htext]⟩
      | ok text =>
          right
          obtain ⟨texPath, output, status, errors, hreadable, hanswer, hcommands, hwarning⟩ :=
            hruns.exists_finished houtcome
          refine ⟨.report, ?_⟩
          rw [ofRun, houtcome]
          simp only [htext, hcommands, hwarning]
          exact .report hreadable hanswer houtcome htext
  | error failure =>
      cases failure with
      | fault cause =>
          left
          exact ⟨cause, by simp [ofRun, houtcome], by simp [ofRun, houtcome]⟩
      | notice cause =>
          right
          obtain ⟨hrun, texPath, logPath, hlocated, hmissing, rfl⟩ :=
            hruns.missing_of_notice houtcome
          refine ⟨.notice, ?_⟩
          rw [hrun, ofRun_fail_notice]
          exact .missingSource hlocated hmissing
      | unavailable cause =>
          right
          have hfatal : (Failure.unavailable cause).Fatal := trivial
          rw [ofRun_of_fatal hfatal houtcome]
          exact ⟨.failure, .failure hstarts hfatal houtcome⟩
      | mismatch cause =>
          right
          have hfatal : (Failure.mismatch cause).Fatal := trivial
          rw [ofRun_of_fatal hfatal houtcome]
          exact ⟨.failure, .failure hstarts hfatal houtcome⟩

/-- A call that is neither a call for help nor rejected ends in exactly one of three ways, with the
status, the streams and the commands that belong together, unless a fault ends it. Then it has
written no output. -/
theorem execute_ends (setting : Setting) (arguments : List String) :
    read arguments = .help ∨ (∃ message, read arguments = .invalid message) ∨
      ∃ fileName?, read arguments = .run fileName? ∧
        ((∃ fault, (execute setting arguments).status = .error fault ∧
            (execute setting arguments).output = "") ∨
          (∃ status, (execute setting arguments).status = .ok status) ∧
            ∃! ending, EndsIn setting fileName? (execute setting arguments) ending) := by
  cases hread : read arguments with
  | help => exact .inl rfl
  | invalid message => exact .inr (.inl ⟨message, rfl⟩)
  | run fileName? =>
      refine .inr (.inr ⟨fileName?, rfl, ?_⟩)
      have hends : (∃ fault, (execute setting arguments).status = .error fault ∧
            (execute setting arguments).output = "") ∨
          ∃ ending, EndsIn setting fileName? (execute setting arguments) ending := by
        rw [execute, hread]
        cases fileName? with
        | none =>
            right
            simp only [ofRun_fail_notice]
            exact ⟨.notice, .usage⟩
        | some fileName => exact ofRun_ends setting fileName
      rcases hends with hfault | ⟨ending, hending⟩
      · exact .inl hfault
      · exact .inr ⟨⟨_, hending.status_eq⟩, ending, hending, fun other hother =>
          hother.unique hending⟩

end CommandLine

end Galley
