import Galley.Decimal.Basic

/-!
# Rounding to decimal places

A decimal is rounded to the nearest multiple of a power of ten, away from zero when it lies half
way between two of them. Coefficients have 28 digits at most.
-/

namespace Galley.Decimal

/-- The least number that does not fit into 28 digits. -/
def coefficientBound : Nat := 10000000000000000000000000000

/-- Of the units of `10 ^ (-places)`, how many the rounded magnitude has. -/
def unitsHalfUp (d : Decimal) (places : Int) : Nat :=
  (d.magnitude * 10 ^ places + 1 / 2).floor.toNat

/-- The decimal rounded to `places` with its sign kept, unless that takes more than 28 digits. -/
def roundHalfUp? (d : Decimal) (places : Int) : Option Decimal :=
  let units := d.unitsHalfUp places
  if units < coefficientBound then some ⟨d.negative, units, -places⟩ else none

end Galley.Decimal
