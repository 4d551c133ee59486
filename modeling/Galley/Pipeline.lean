import Galley.Display
import Galley.Manuscript
import Galley.Report.Basic
import Galley.WordCounter

/-!
# From a file name to a report

The stages follow one another: load the manuscript, count its words, count displayed lines, list
and price its images. The first failure ends the run.
-/

namespace Galley

/-- What a run depends on besides its file name. -/
structure Setting where
  read : FileReader
  answer : WordCounter.Answer
  counter : WordCounter := {}
  guide : LengthGuide := {}

/-- The report on a manuscript whose words have been counted. -/
def Manuscript.report (manuscript : Manuscript) (guide : LengthGuide)
    (summary : WordCounter.Summary) : Except Failure Report := do
  let mathLines := Display.countLines Display.defaultEnvironments manuscript.source
  let images ← (CompileLog.images manuscript.log).mapError .mismatch
  let estimates ← guide.estimateAll images (Figure.list manuscript.source)
  return ⟨summary.output, summary.words, mathLines, estimates, guide⟩

/-- The report on the manuscript that a file name stands for. -/
def Setting.report (setting : Setting) (fileName : String) : Run Report :=
  match Manuscript.load setting.read fileName with
  | .error failure => .fail failure
  | .ok manuscript =>
    (setting.counter.run manuscript.texPath setting.answer).andThen
      (manuscript.report setting.guide)

end Galley
