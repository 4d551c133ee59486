import Galley.Binary64.Basic

/-! # Length guides -/

namespace Galley

/-- How many words a journal charges for displayed lines and figures. A figure of aspect ratio `r`
costs `words / r + offset` in one column and `words / (scale * r) + offset` across two. -/
structure LengthGuide where
  wordsPerEquationLine : Int := 16
  singleColumnWords : Binary64 := .ofNat 150
  singleColumnOffset : Binary64 := .ofNat 20
  doubleColumnWords : Binary64 := .ofNat 300
  doubleColumnScale : Binary64 := .ofRat false (1 / 2)
  doubleColumnOffset : Binary64 := .ofNat 40
  /-- The decimal places that an aspect ratio is rounded to. -/
  aspectRatioPlaces : Int := 3
  deriving DecidableEq, Repr

end Galley
