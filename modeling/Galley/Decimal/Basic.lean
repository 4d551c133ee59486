import Galley.Text.Digit

/-! # Decimal numbers -/

namespace Galley

/-- The number `± coefficient · 10 ^ exponent`. Zero has a sign as well. -/
structure Decimal where
  negative : Bool
  coefficient : Nat
  exponent : Int
  deriving DecidableEq, Repr

namespace Decimal

def magnitude (d : Decimal) : Rat :=
  d.coefficient * 10 ^ d.exponent

def toRat (d : Decimal) : Rat :=
  if d.negative then -d.magnitude else d.magnitude

/-- The digits of the coefficient, most significant first. -/
def digits (d : Decimal) : List Char :=
  Nat.toDigits 10 d.coefficient

/-- The exponent that the first digit stands at. -/
def order (d : Decimal) : Int :=
  d.exponent + d.digits.length - 1

/-- Reads decimal digits of any block with at most one dot among them. At least one digit has to
be there. -/
def ofNumeral? (numeral : List Char) : Option Decimal :=
  let whole := numeral.takeWhile (· != '.')
  let places := (numeral.dropWhile (· != '.')).drop 1
  if whole.isEmpty && places.isEmpty then none
  else (Text.natOfDigits? (whole ++ places)).map fun n => ⟨false, n, -places.length⟩

end Decimal

end Galley
