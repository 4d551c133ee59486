import Galley.Binary64.Checked
import Galley.CompileLog
import Galley.Figure
import Galley.Guide

/-!
# The price of an image in words

An image is priced by its aspect ratio and the column mode of its figure. The `i`-th image of the
log belongs to the `i`-th figure of the document.
-/

namespace Galley

/-- The words that an image counts for. -/
structure Estimate where
  fileName : String
  aspectRatio : Binary64
  words : Int
  columnMode : ColumnMode
  deriving DecidableEq, Repr

def Estimate.twoColumn (estimate : Estimate) : Bool :=
  estimate.columnMode == .double

namespace LengthGuide

variable (guide : LengthGuide)

/-- The rounded quotient of width and height, both of which have to be positive. -/
def aspectRatio (width height : Binary64) : Except Failure Binary64 := do
  if height.isNonpositive then throw (.mismatch (.heightNotPositive height))
  let quotient ← (width.div height).mapError .fault
  let ratio ← (quotient.roundHalfUp guide.aspectRatioPlaces).mapError .fault
  if ratio.isNonpositive then throw (.mismatch (.widthNotPositive width height ratio))
  return ratio

/-- The words before rounding up to a whole number. -/
def price (ratio : Binary64) : ColumnMode → Except Failure Binary64
  | .single => do
    let share ← (guide.singleColumnWords.div ratio).mapError .fault
    return share.add guide.singleColumnOffset
  | .double => do
    let share ← (guide.doubleColumnWords.div (guide.doubleColumnScale.mul ratio)).mapError .fault
    return share.add guide.doubleColumnOffset
  | .other label => throw (.mismatch (.unknownColumnMode label))

def wordEquivalent (ratio : Binary64) (mode : ColumnMode) : Except Failure Int := do
  if ratio.isNonpositive then throw (.mismatch (.ratioNotPositive ratio))
  (← guide.price ratio mode).ceil.mapError .fault

def estimate (image : Image) (mode : ColumnMode) : Except Failure Estimate := do
  let ratio ← guide.aspectRatio image.width image.height
  return ⟨image.fileName, ratio, ← guide.wordEquivalent ratio mode, mode⟩

end LengthGuide

/-- Pairs images with figures, whatever is known of them, by their order. Figures may be left
over, images may not. -/
def pairFigures {φ : Type} (images : List Image) (figures : List φ) :
    Except Mismatch (List (Image × φ)) :=
  if figures.length < images.length then
    .error (.missingFigures images.length figures.length)
  else .ok (images.zip figures)

/-- The estimates of all images, or the failure of the first that has none. -/
def LengthGuide.estimateAll (guide : LengthGuide) (images : List Image) (figures : List Figure) :
    Except Failure (List Estimate) := do
  let pairs ← (pairFigures images figures).mapError .mismatch
  pairs.mapM fun (image, figure) => guide.estimate image figure.columnMode

end Galley
