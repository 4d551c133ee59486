import Mathlib
import Galley.Proofs.CommandLine.Ending
import Galley.Proofs.CompileLog.Sizes
import Galley.Proofs.Estimate.Matching
import Galley.Proofs.Report.Printing

/-! # The faults that no stage accounts for -/

namespace Galley

/-! ## Faults of the stages -/

theorem Manuscript.load_eq_fault_iff (read : FileReader) (fileName : String) (fault : Fault) :
    load read fileName = .error (.fault fault) ↔
      (resolve fileName).names = [] ∧ fault = .emptyName (resolve fileName) ∨
        ∃ texPath logPath, Located fileName texPath logPath ∧
          read texPath = .error .nameTooLong ∧ fault = .nameTooLong texPath := by
  constructor
  · intro h
    have hloads := load_loads read fileName
    rw [h] at hloads
    cases hloads with
    | noName hname => exact .inl ⟨hname, rfl⟩
    | sourceTooLong hlocated hread => exact .inr ⟨_, _, hlocated, hread, rfl⟩
  · rintro (⟨hname, rfl⟩ | ⟨texPath, logPath, hlocated, hread, rfl⟩)
    · exact load_of_names_eq_nil hname read
    · rw [load_of_located hlocated, readSource, hread]
      rfl

theorem WordCounter.sumCount_eq_fault_iff (output : String) (fault : Fault) :
    sumCount output = .error (.fault fault) ↔
      ∃ digits, (readings readSum output.toList).head? = some digits ∧
        Text.digitLimit < digits.length ∧ fault = .tooManyDigitsRead digits.length := by
  rw [sumCount]
  cases (readings readSum output.toList).head? with
  | none => simp
  | some digits =>
      by_cases hlong : Text.digitLimit < digits.length
      · simp [hlong, eq_comm]
      · simp [hlong]

theorem WordCounter.run_eq_fault_iff (counter : WordCounter) (texPath : Path) (answer : Answer)
    (fault : Fault) :
    (counter.run texPath answer).outcome = .error (.fault fault) ↔
      ∃ output status errors digits, answer = .finished output status errors ∧
        (readings readSum output.toList).head? = some digits ∧
        Text.digitLimit < digits.length ∧ fault = .tooManyDigitsRead digits.length := by
  cases answer with
  | unavailable reason => simp [run]
  | finished output status errors =>
      have hmap : ((sumCount output).map fun words => (⟨output, words⟩ : Summary)) =
          .error (.fault fault) ↔ sumCount output = .error (.fault fault) := by
        cases sumCount output <;> simp [Except.map]
      rw [run, hmap, sumCount_eq_fault_iff]
      simp

/-- The image is the first one of a log that has no price with the default guide. -/
def Manuscript.PricesUpTo (manuscript : Manuscript) (image : Image) : Prop :=
  ∃ before after, CompileLog.images manuscript.log = .ok (before ++ image :: after) ∧
    (before ++ image :: after).length ≤ (Figure.list manuscript.source).length ∧
    ∀ earlier ∈ before, earlier.Fair

theorem Manuscript.report_eq_fault_iff (manuscript : Manuscript) (summary : WordCounter.Summary)
    (fault : Fault) :
    manuscript.report {} summary = .error (.fault fault) ↔
      ∃ image, manuscript.PricesUpTo image ∧ image.Faulty fault := by
  have hmodes : ∀ figure ∈ Figure.list manuscript.source,
      figure.columnMode = .single ∨ figure.columnMode = .double :=
    fun figure hfigure => Figure.columnMode_of_mem_list hfigure
  cases himages : CompileLog.images manuscript.log with
  | error cause =>
      have hreport : manuscript.report {} summary = .error (.mismatch cause) := by
        rw [report, himages]
        rfl
      constructor
      · intro h
        cases hreport.symm.trans h
      · rintro ⟨image, ⟨before, after, hsplit, -⟩, -⟩
        cases himages.symm.trans hsplit
  | ok images =>
      have hreport : manuscript.report {} summary = .error (.fault fault) ↔
          ({} : LengthGuide).estimateAll images (Figure.list manuscript.source) =
            .error (.fault fault) := by
        rw [report, himages]
        change (LengthGuide.estimateAll {} images _ >>= _) = _ ↔ _
        cases ({} : LengthGuide).estimateAll images (Figure.list manuscript.source) <;>
          simp [bind, Except.bind, pure, Except.pure]
      rw [hreport, estimateAll_eq_fault_iff hmodes]
      constructor
      · rintro ⟨hlength, before, image, after, rfl, hbefore, hfaulty⟩
        exact ⟨image, ⟨before, after, himages, hlength, hbefore⟩, hfaulty⟩
      · rintro ⟨image, ⟨before, after, hsplit, hlength, hbefore⟩, hfaulty⟩
        obtain rfl := Except.ok.inj (himages.symm.trans hsplit)
        exact ⟨hlength, before, image, after, rfl, hbefore, hfaulty⟩

/-- Every count of a report is a natural number. -/
theorem Manuscript.counts_of_report {manuscript : Manuscript} {summary : WordCounter.Summary}
    {report : Report} (h : manuscript.report {} summary = .ok report) : report.Counts := by
  rw [Manuscript.report] at h
  obtain ⟨images, -, hrest⟩ := exists_of_bind_eq_ok h
  obtain ⟨estimates, hestimates, hreport⟩ := exists_of_bind_eq_ok hrest
  obtain ⟨pairs, hpairs, hmapM⟩ := exists_of_bind_eq_ok hestimates
  have hzip : pairs = images.zip (Figure.list manuscript.source) := by
    rw [pairFigures] at hpairs
    split at hpairs
    · cases hpairs
    · exact (Except.ok.inj hpairs).symm
  have hwords : ∀ estimate ∈ estimates, 0 ≤ estimate.words := by
    refine forall_of_mapM_eq_ok hmapM ?_
    rintro ⟨image, figure⟩ hpair estimate hestimate
    rw [hzip] at hpair
    have hmode := Figure.columnMode_of_mem_list (List.of_mem_zip hpair).2
    exact (estimate_prices image hmode).words_nonneg hestimate
  rw [← Except.ok.inj hreport]
  exact ⟨Int.natCast_nonneg _, Int.natCast_nonneg _, hwords, (by decide : (1 : Int) ≤ 16)⟩

/-! ## Faults of a run -/

theorem report_outcome_eq_fault_iff (setting : Setting) (fileName : String) (fault : Fault) :
    (setting.report fileName).outcome = .error (.fault fault) ↔
      Manuscript.load setting.read fileName = .error (.fault fault) ∨
        ∃ manuscript, Manuscript.load setting.read fileName = .ok manuscript ∧
          ((setting.counter.run manuscript.texPath setting.answer).outcome =
              .error (.fault fault) ∨
            ∃ summary, (setting.counter.run manuscript.texPath setting.answer).outcome =
                .ok summary ∧
              manuscript.report setting.guide summary = .error (.fault fault)) := by
  cases hload : Manuscript.load setting.read fileName with
  | error failure =>
      rw [report_of_error hload]
      simp [Run.fail]
  | ok manuscript =>
      rw [report_of_ok hload, Run.andThen, bind_eq_error_iff]
      simp

theorem counts_of_outcome {read : FileReader} {answer : WordCounter.Answer} {fileName : String}
    {report : Report}
    (h : (Setting.report { read := read, answer := answer } fileName).outcome = .ok report) :
    report.Counts := by
  cases hload : Manuscript.load read fileName with
  | error failure =>
      rw [report_of_error hload] at h
      cases h
  | ok manuscript =>
      rw [report_of_ok hload] at h
      obtain ⟨summary, -, hreport⟩ := exists_of_bind_eq_ok h
      exact Manuscript.counts_of_report hreport

/-- A run ends in a fault, before its report is there or when that is written. -/
def Run.EndsInFault (run : Run Report) (fault : Fault) : Prop :=
  run.outcome = .error (.fault fault) ∨
    ∃ report, run.outcome = .ok report ∧ report.text = .error fault

/-- A run ends in a report that can be written, in a notice, or in an error that it accounts
for. -/
inductive Run.Settles (run : Run Report) : Prop where
  | report {report : Report} {text : String} : run.outcome = .ok report → report.text = .ok text →
      Settles run
  | notice {cause : Notice} : run.outcome = .error (.notice cause) → Settles run
  | fatal {failure : Failure} : failure.Fatal → run.outcome = .error failure → Settles run

theorem Run.settles_or_endsInFault (run : Run Report) :
    run.Settles ∨ ∃ fault, run.EndsInFault fault := by
  cases houtcome : run.outcome with
  | ok report =>
      cases htext : report.text with
      | ok text => exact .inl (.report houtcome htext)
      | error fault => exact .inr ⟨fault, .inr ⟨report, houtcome, htext⟩⟩
  | error failure =>
      cases failure with
      | notice cause => exact .inl (.notice houtcome)
      | unavailable cause =>
          have hfatal : (Failure.unavailable cause).Fatal := trivial
          exact .inl (.fatal hfatal houtcome)
      | mismatch cause =>
          have hfatal : (Failure.mismatch cause).Fatal := trivial
          exact .inl (.fatal hfatal houtcome)
      | fault cause => exact .inr ⟨cause, .inl houtcome⟩

theorem Run.Settles.not_endsInFault {run : Run Report} (h : run.Settles) (fault : Fault) :
    ¬ run.EndsInFault fault := by
  rintro (hfault | ⟨report, hreport, htext⟩)
  · cases h with
    | report houtcome _ => cases houtcome.symm.trans hfault
    | notice houtcome => cases houtcome.symm.trans hfault
    | fatal hfatal houtcome =>
        cases houtcome.symm.trans hfault
        exact hfatal
  · cases h with
    | report houtcome htext' =>
        cases houtcome.symm.trans hreport
        cases htext'.symm.trans htext
    | notice houtcome => cases houtcome.symm.trans hreport
    | fatal _ houtcome => cases houtcome.symm.trans hreport

/-- The word counter has counted the words of a loaded manuscript. -/
structure Counted (read : FileReader) (answer : WordCounter.Answer) (fileName : String)
    (manuscript : Manuscript) : Prop where
  load : Manuscript.load read fileName = .ok manuscript
  run : ∃ summary, (({} : WordCounter).run manuscript.texPath answer).outcome = .ok summary

/-- The faults that a run can end in, and what leads to each. -/
inductive Escapes (read : FileReader) (answer : WordCounter.Answer) (fileName : String) :
    Fault → Prop where
  | noName : (Manuscript.resolve fileName).names = [] →
      Escapes read answer fileName (.emptyName (Manuscript.resolve fileName))
  | nameTooLong {texPath logPath : Path} : Manuscript.Located fileName texPath logPath →
      read texPath = .error .nameTooLong → Escapes read answer fileName (.nameTooLong texPath)
  | longSum {manuscript : Manuscript} {output errors : String} {status : Int}
      {digits : List Char} : Manuscript.load read fileName = .ok manuscript →
      answer = .finished output status errors →
      (readings WordCounter.readSum output.toList).head? = some digits →
      Text.digitLimit < digits.length →
      Escapes read answer fileName (.tooManyDigitsRead digits.length)
  | excessiveRatio {manuscript : Manuscript} {image : Image} {q : Binary64} :
      Counted read answer fileName manuscript → manuscript.PricesUpTo image →
      image.height.isNonpositive = false → image.width.div? image.height = some q →
      q.Excessive → Escapes read answer fileName .coefficientTooLong
  | undefinedRatio {manuscript : Manuscript} {image : Image} :
      Counted read answer fileName manuscript → manuscript.PricesUpTo image →
      image.width = .infinity false → image.height = .infinity false →
      Escapes read answer fileName .ceilingOfNan
  | longTotal {report : Report} :
      (Setting.report { read := read, answer := answer } fileName).outcome = .ok report →
      Report.writtenBound ≤ report.total → Escapes read answer fileName .tooManyDigitsWritten

namespace Escapes

variable {read : FileReader} {answer : WordCounter.Answer} {fileName : String}

theorem endsInFault_of_load {fault : Fault}
    (h : Manuscript.load read fileName = .error (.fault fault)) :
    (Setting.report { read := read, answer := answer } fileName).EndsInFault fault := by
  left
  rw [report_outcome_eq_fault_iff]
  exact .inl h

theorem endsInFault_of_faulty {manuscript : Manuscript} {image : Image} {fault : Fault}
    (hcounted : Counted read answer fileName manuscript) (hprices : manuscript.PricesUpTo image)
    (h : image.Faulty fault) :
    (Setting.report { read := read, answer := answer } fileName).EndsInFault fault := by
  obtain ⟨summary, hsummary⟩ := hcounted.run
  left
  rw [report_outcome_eq_fault_iff]
  refine .inr ⟨manuscript, hcounted.load, .inr ⟨summary, hsummary, ?_⟩⟩
  exact (Manuscript.report_eq_fault_iff manuscript summary fault).mpr ⟨image, hprices, h⟩

theorem endsInFault {fault : Fault} (h : Escapes read answer fileName fault) :
    (Setting.report { read := read, answer := answer } fileName).EndsInFault fault := by
  cases h with
  | noName hname =>
      exact endsInFault_of_load ((Manuscript.load_eq_fault_iff _ _ _).mpr (.inl ⟨hname, rfl⟩))
  | nameTooLong hlocated hread =>
      exact endsInFault_of_load ((Manuscript.load_eq_fault_iff _ _ _).mpr
        (.inr ⟨_, _, hlocated, hread, rfl⟩))
  | longSum hload hanswer hdigits hlong =>
      left
      rw [report_outcome_eq_fault_iff]
      refine .inr ⟨_, hload, .inl ((WordCounter.run_eq_fault_iff _ _ _ _).mpr ?_)⟩
      exact ⟨_, _, _, _, hanswer, hdigits, hlong, rfl⟩
  | excessiveRatio hcounted hprices hheight hq hexcessive =>
      exact endsInFault_of_faulty hcounted hprices (.excessive hheight hq hexcessive)
  | undefinedRatio hcounted hprices hwidth hheight =>
      refine endsInFault_of_faulty hcounted hprices (.undefined ?_ ?_)
      · rw [hheight]
        rfl
      · rw [hwidth, hheight]
        rfl
  | longTotal hreport htotal => exact .inr ⟨_, hreport, Report.text_of_le_total htotal⟩

theorem of_load {fault : Fault} (h : Manuscript.load read fileName = .error (.fault fault)) :
    Escapes read answer fileName fault := by
  rcases (Manuscript.load_eq_fault_iff read fileName fault).mp h with
    ⟨hname, rfl⟩ | ⟨texPath, logPath, hlocated, hread, rfl⟩
  · exact .noName hname
  · exact .nameTooLong hlocated hread

/-- The sizes in a log are unsigned, so a ratio without a value is one of two infinite sizes. -/
theorem of_faulty {manuscript : Manuscript} {image : Image} {fault : Fault}
    (hcounted : Counted read answer fileName manuscript) (hprices : manuscript.PricesUpTo image)
    (h : image.Faulty fault) : Escapes read answer fileName fault := by
  cases h with
  | excessive hheight hq hexcessive => exact .excessiveRatio hcounted hprices hheight hq hexcessive
  | undefined hheight hq =>
      obtain ⟨before, after, himages, -⟩ := id hprices
      obtain ⟨hwidth, hheight⟩ := CompileLog.images_unsigned himages image (by simp)
      obtain ⟨hwidth, hheight⟩ := Binary64.eq_infinity_of_div?_eq_nan hwidth hheight hq
      exact .undefinedRatio hcounted hprices hwidth hheight

theorem of_outcome {fault : Fault}
    (h : (Setting.report { read := read, answer := answer } fileName).outcome =
      .error (.fault fault)) : Escapes read answer fileName fault := by
  rcases (report_outcome_eq_fault_iff _ fileName fault).mp h with
    hload | ⟨manuscript, hload, hrun | ⟨summary, hsummary, hreport⟩⟩
  · exact of_load hload
  · obtain ⟨output, status, errors, digits, hanswer, hdigits, hlong, rfl⟩ :=
      (WordCounter.run_eq_fault_iff _ _ _ _).mp hrun
    exact .longSum hload hanswer hdigits hlong
  · obtain ⟨image, hprices, hfaulty⟩ :=
      (Manuscript.report_eq_fault_iff manuscript summary fault).mp hreport
    exact of_faulty ⟨hload, summary, hsummary⟩ hprices hfaulty

theorem of_text {report : Report} {fault : Fault}
    (hreport : (Setting.report { read := read, answer := answer } fileName).outcome = .ok report)
    (h : report.text = .error fault) : Escapes read answer fileName fault := by
  obtain rfl := report.text_failsWith fault h
  refine .longTotal hreport ?_
  by_contra hlt
  obtain ⟨text, htext⟩ := (counts_of_outcome hreport).exists_text (not_le.mp hlt)
  cases h.symm.trans htext

end Escapes

theorem endsInFault_iff_escapes (read : FileReader) (answer : WordCounter.Answer)
    (fileName : String) (fault : Fault) :
    (Setting.report { read := read, answer := answer } fileName).EndsInFault fault ↔
      Escapes read answer fileName fault := by
  constructor
  · rintro (houtcome | ⟨report, houtcome, htext⟩)
    · exact .of_outcome houtcome
    · exact .of_text houtcome htext
  · exact Escapes.endsInFault

namespace CommandLine

theorem status_ofRun (run : Run Report) :
    (ofRun run).status = .ok 0 ∨ (ofRun run).status = .ok 1 ∨
      ∃ fault, run.EndsInFault fault ∧ (ofRun run).status = .error fault := by
  rw [ofRun]
  cases houtcome : run.outcome with
  | ok report =>
      cases htext : report.text with
      | ok text => simp [htext]
      | error fault => exact .inr (.inr ⟨fault, .inr ⟨report, houtcome, htext⟩, by simp [htext]⟩)
  | error failure =>
      cases failure with
      | notice cause => exact .inl rfl
      | unavailable cause => exact .inr (.inl rfl)
      | mismatch cause => exact .inr (.inl rfl)
      | fault cause => exact .inr (.inr ⟨cause, .inl houtcome, rfl⟩)

end CommandLine

/-- With the default guide and word counter, a run settles unless one of six things happens, each
of which ends it in its own fault: the file name has no last part or one that is too long, the
sum has too many digits, the first image without a price is too wide for its height or infinite in
both sizes, or the total has too many digits. A call that is not rejected then ends with the status
0 or 1. -/
theorem settles_iff_not_escapes (read : FileReader) (answer : WordCounter.Answer) :
    (∀ fileName, (Setting.report { read := read, answer := answer } fileName).Settles ↔
      ∀ fault, ¬ Escapes read answer fileName fault) ∧
    (∀ fileName fault,
      (Setting.report { read := read, answer := answer } fileName).EndsInFault fault ↔
        Escapes read answer fileName fault) ∧
    ∀ arguments, (∃ message, CommandLine.read arguments = .invalid message) ∨
      (CommandLine.execute { read := read, answer := answer } arguments).status = .ok 0 ∨
      (CommandLine.execute { read := read, answer := answer } arguments).status = .ok 1 ∨
      ∃ fileName fault, CommandLine.read arguments = .run (some fileName) ∧
        Escapes read answer fileName fault ∧
        (CommandLine.execute { read := read, answer := answer } arguments).status =
          .error fault := by
  refine ⟨?_, endsInFault_iff_escapes read answer, ?_⟩
  · intro fileName
    constructor
    · intro hsettles fault hescapes
      exact hsettles.not_endsInFault fault hescapes.endsInFault
    · intro hnone
      refine (Run.settles_or_endsInFault _).resolve_right ?_
      rintro ⟨fault, hfault⟩
      exact hnone fault ((endsInFault_iff_escapes read answer fileName fault).mp hfault)
  · intro arguments
    rw [CommandLine.execute]
    cases hread : CommandLine.read arguments with
    | help => exact .inr (.inl rfl)
    | invalid message => exact .inl ⟨message, rfl⟩
    | run fileName? =>
        right
        cases fileName? with
        | none => exact .inl rfl
        | some fileName =>
            rcases CommandLine.status_ofRun
                (Setting.report { read := read, answer := answer } fileName) with
              hzero | hone | ⟨fault, hfault, hstatus⟩
            · exact .inl hzero
            · exact .inr (.inl hone)
            · exact .inr (.inr ⟨fileName, fault, rfl,
                (endsInFault_iff_escapes read answer fileName fault).mp hfault, hstatus⟩)

/-- A dot leads to no file, whatever there is. -/
example (read : FileReader) (answer : WordCounter.Answer) :
    (CommandLine.execute { read := read, answer := answer } ["."]).status =
      .error (.emptyName ⟨.relative, []⟩) := by
  rfl

end Galley
