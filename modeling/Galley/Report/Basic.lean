import Galley.Estimate

/-! # Length reports -/

namespace Galley

/-- The counts of a manuscript, the output of the word counter, and the guide that prices them. -/
structure Report where
  counterOutput : String
  textWords : Int
  mathLines : Int
  images : List Estimate
  guide : LengthGuide := {}
  deriving DecidableEq, Repr

namespace Report

def equationWords (report : Report) : Int :=
  report.guide.wordsPerEquationLine * report.mathLines

def imageWords (report : Report) : Int :=
  report.images.foldr (fun image n => image.words + n) 0

def total (report : Report) : Int :=
  report.textWords + report.equationWords + report.imageWords

end Report

end Galley
