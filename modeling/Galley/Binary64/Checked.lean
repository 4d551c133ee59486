import Galley.Decimal.HalfUp
import Galley.Failure

/-! # Operations on numbers that can fail -/

namespace Galley.Binary64

/-- The number of decimal places beyond which no power of ten is formed. -/
def scaleLimit : Nat := 2000054

/-- The greatest exponent of a rounding unit. -/
def unitLimit : Int := 999999

/-- Rounds the shortest decimal of a number to `places`, half away from zero. -/
def roundHalfUp (x : Binary64) (places : Int) : Except Fault Binary64 :=
  if scaleLimit < places.natAbs then .error .coefficientTooLong
  else if unitLimit < -places then .error .exponentTooLarge
  else match x with
    | .nan => .ok .nan
    | .infinity _ => .error .coefficientTooLong
    | .finite x =>
      match (shortestDecimal x).roundHalfUp? places with
      | some d => .ok (.ofDecimal d)
      | none => .error .coefficientTooLong

/-- The least integer that is not below a number. -/
def ceil : Binary64 → Except Fault Int
  | .nan => .error .ceilingOfNan
  | .infinity _ => .error .ceilingOfInfinity
  | .finite x => .ok x.toRat.ceil

def div (x y : Binary64) : Except Fault Binary64 :=
  match x.div? y with
  | some quotient => .ok quotient
  | none => .error .divisionByZero

end Galley.Binary64
