import Galley.Decimal.Basic

/-!
# Binary floating-point numbers of 64 bits

A number is not-a-number, a signed infinity, or a signed significand below `2 ^ 53` times a power
of two. Every operation is exact in the rationals and then rounded once, to the nearest number,
with ties to the even significand.
-/

namespace Galley

namespace Binary64

/-- Each finite value has one form: the exponent is least where the significand is short. -/
def Canonical (significand : Nat) (exponent : Int) : Prop :=
  significand < 9007199254740992 ∧ -1074 ≤ exponent ∧ exponent ≤ 971 ∧
    (4503599627370496 ≤ significand ∨ exponent = -1074)

instance (significand : Nat) (exponent : Int) : Decidable (Canonical significand exponent) :=
  inferInstanceAs (Decidable (_ ∧ _))

/-- The number `± significand · 2 ^ exponent`. -/
structure Finite where
  negative : Bool
  significand : Nat
  exponent : Int
  canonical : Canonical significand exponent
  deriving DecidableEq, Repr

def Finite.magnitude (x : Finite) : Rat :=
  x.significand * 2 ^ x.exponent

def Finite.toRat (x : Finite) : Rat :=
  if x.negative then -x.magnitude else x.magnitude

end Binary64

inductive Binary64 where
  | nan
  | infinity (negative : Bool)
  | finite (x : Binary64.Finite)
  deriving DecidableEq, Repr

namespace Binary64

/-! ## Rounding -/

/-- The greatest `k` with `2 ^ k ≤ x`, for a positive `x`. -/
def floorLog2 (x : Rat) : Int :=
  let estimate : Int := x.num.natAbs.log2 - x.den.log2
  if (2 : Rat) ^ estimate ≤ x then estimate else estimate - 1

/-- The natural number nearest to `x`, for a nonnegative `x`; half way, the even one. -/
def roundHalfEven (x : Rat) : Nat :=
  let below := x.floor.toNat
  let rest := x - below
  if rest < 1 / 2 then below
  else if 1 / 2 < rest then below + 1
  else below + below % 2

/-- The finite number of a canonical significand and exponent. What is too large for one is
infinite. -/
def pack (negative : Bool) (significand : Nat) (exponent : Int) : Binary64 :=
  if h : Canonical significand exponent then .finite ⟨negative, significand, exponent, h⟩
  else .infinity negative

/-- The exponent of the last bit of a significand near `x`. -/
def unitExponent (x : Rat) : Int :=
  max (floorLog2 x - 52) (-1074)

/-- The number nearest to a positive magnitude. A significand that rounds up to `2 ^ 53` moves on
to the next exponent. -/
def ofMagnitude (negative : Bool) (x : Rat) : Binary64 :=
  let exponent := unitExponent x
  let significand := roundHalfEven (x / 2 ^ exponent)
  if significand = 9007199254740992 then pack negative 4503599627370496 (exponent + 1)
  else pack negative significand exponent

def zero (negative : Bool) : Binary64 :=
  pack negative 0 (-1074)

/-- The number nearest to `x`; `negative` is the sign of the result when `x` is zero. -/
def ofRat (negative : Bool) (x : Rat) : Binary64 :=
  if x = 0 then zero negative
  else if x < 0 then ofMagnitude true (-x)
  else ofMagnitude false x

def ofNat (n : Nat) : Binary64 :=
  ofRat false n

def ofDecimal (d : Decimal) : Binary64 :=
  ofRat d.negative d.toRat

/-! ## Arithmetic -/

def isNegative : Binary64 → Bool
  | .nan => false
  | .infinity negative => negative
  | .finite x => x.negative

def isZero : Binary64 → Bool
  | .finite x => x.significand == 0
  | _ => false

/-- At most zero. Not-a-number is not. -/
def isNonpositive (x : Binary64) : Bool :=
  x.isNegative || x.isZero

/-- A zero sum is positive unless both terms are negative. -/
def add : Binary64 → Binary64 → Binary64
  | .nan, _ | _, .nan => .nan
  | .infinity m, .infinity n => if m = n then .infinity m else .nan
  | .infinity m, .finite _ => .infinity m
  | .finite _, .infinity n => .infinity n
  | .finite x, .finite y => ofRat (x.negative && y.negative) (x.toRat + y.toRat)

def mul : Binary64 → Binary64 → Binary64
  | .nan, _ | _, .nan => .nan
  | .finite x, .finite y => ofRat (x.negative != y.negative) (x.toRat * y.toRat)
  | x, y => if x.isZero || y.isZero then .nan else .infinity (x.isNegative != y.isNegative)

/-- No quotient has a zero for its divisor. -/
def div? (x y : Binary64) : Option Binary64 :=
  if y.isZero then none
  else some <| match x, y with
    | .nan, _ | _, .nan => .nan
    | .infinity _, .infinity _ => .nan
    | .infinity m, .finite y => .infinity (m != y.negative)
    | .finite x, .infinity n => zero (x.negative != n)
    | .finite x, .finite y => ofRat (x.negative != y.negative) (x.toRat / y.toRat)

end Binary64

end Galley
