import Galley.Binary64.Basic

/-!
# Shortest decimals

The shortest decimal of a number lies on the coarsest grid of multiples of a power of ten that
has a point which reads back as the number, and is the nearest such point.
-/

namespace Galley.Binary64

/-- The greatest `k` with `10 ^ k ≤ x`, for an `x` not below `10 ^ (-324)`. -/
def floorLog10 (x : Rat) : Int :=
  (Nat.toDigits 10 (x * 10 ^ (324 : Nat)).floor.toNat).length - 325

/-- Of the multiples of `10 ^ exponent` next to a number, the nearest that reads back as it. -/
def nearestOnGrid? (x : Finite) (exponent : Int) : Option Decimal :=
  let scaled := x.magnitude / 10 ^ exponent
  let below := scaled.floor.toNat
  let candidates := [roundHalfEven scaled, below, below + 1].map fun n =>
    (⟨x.negative, n, exponent⟩ : Decimal)
  candidates.find? fun d => ofDecimal d == .finite x

/-- The decimal that equals a number. -/
def exactDecimal (x : Finite) : Decimal :=
  let exponent := min x.exponent 0
  ⟨x.negative, (x.magnitude / 10 ^ exponent).floor.toNat, exponent⟩

/-- From the grid above the first digit down to that of the seventeenth. -/
def shortestDecimal (x : Finite) : Decimal :=
  if x.significand = 0 then ⟨x.negative, 0, 0⟩
  else
    let coarsest := floorLog10 x.magnitude + 1
    ((List.range 18).findSome? fun (i : Nat) => nearestOnGrid? x (coarsest - i)).getD (exactDecimal x)

end Galley.Binary64
