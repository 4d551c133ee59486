import Mathlib
import Galley.Binary64.Checked
import Galley.Proofs.Binary64.Nearest
import Galley.Proofs.Binary64.Shortest
import Galley.Proofs.Decimal.HalfUp

/-!
# Rounding numbers to decimal places

The shortest decimal of a number is rounded half up, without loss, and the number nearest to what
comes of it is taken. Only a decimal of more than 28 digits is refused, and it is refused for what
it is after it has been rounded.
-/

namespace Galley.Binary64

theorem scaleLimit_eq : scaleLimit = 2000054 := rfl

theorem unitLimit_eq : unitLimit = 999999 := rfl

/-- Within the limits of exponents, only the digits of the rounded decimal count. -/
theorem roundHalfUp_finite (x : Finite) {places : Int} (h : places.natAbs ≤ 999999) :
    (finite x).roundHalfUp places =
      if (shortestDecimal x).unitsHalfUp places < Decimal.coefficientBound then
        .ok (ofDecimal ((shortestDecimal x).halfUp places))
      else .error .coefficientTooLong := by
  have hscale : ¬ scaleLimit < places.natAbs := by
    rw [scaleLimit_eq]
    omega
  have hunit : ¬ unitLimit < -places := by
    rw [unitLimit_eq]
    omega
  rw [roundHalfUp, if_neg hscale, if_neg hunit]
  by_cases hlt : (shortestDecimal x).unitsHalfUp places < Decimal.coefficientBound
  · simp only [Decimal.roundHalfUp?_eq, if_pos hlt]
  · simp only [Decimal.roundHalfUp?_eq, if_neg hlt]

/-- The units of a rounded decimal are counted by its magnitude. -/
theorem abs_toRat_halfUp_mul (d : Decimal) (places : Int) :
    |(d.halfUp places).toRat| * 10 ^ places = d.unitsHalfUp places := by
  rw [d.abs_toRat_halfUp, mul_assoc, ← zpow_add₀ (by norm_num), neg_add_cancel, zpow_zero, mul_one]

/-- A number is rounded to decimal places by way of `m`. -/
structure RoundedBy (x : Finite) (places : Int) (m : Rat) : Prop where
  unique : ∀ other, Decimal.HalfUp (shortestDecimal x).toRat places other ↔ other = m
  refused : (finite x).roundHalfUp places = .error .coefficientTooLong ↔
    10 ^ 28 ≤ |m| * 10 ^ places
  rounded : |m| * 10 ^ places < 10 ^ 28 → ∃ decimal result,
    (shortestDecimal x).roundHalfUp? places = some decimal ∧ decimal.toRat = m ∧
    decimal.negative = (shortestDecimal x).negative ∧
    (finite x).roundHalfUp places = .ok result ∧ NearestTo m result ∧
    result.isNegative = (shortestDecimal x).negative

/-- For every number, and every number of places that decimals have exponents for, there is one `m`
that the shortest decimal is rounded to. Its sign is kept, and the result is the number nearest
to `m`, unless `m` has more than 28 digits. -/
theorem exists_roundedBy (x : Finite) {places : Int} (h : places.natAbs ≤ 999999) :
    ∃ m, RoundedBy x places m := by
  have hspec := (shortestDecimal x).halfUp_spec places
  have hbound : ((Decimal.coefficientBound : Nat) : Rat) = 10 ^ 28 := by
    norm_num [Decimal.coefficientBound]
  refine ⟨((shortestDecimal x).halfUp places).toRat, ?_, ?_, ?_⟩
  · intro other
    constructor
    · intro hother
      exact hother.unique hspec
    · rintro rfl
      exact hspec
  · rw [roundHalfUp_finite x h, abs_toRat_halfUp_mul, ← hbound, Nat.cast_le]
    split
    next hlt => simp [hlt]
    next hle => simp [not_lt.mp hle]
  · intro hlt
    rw [abs_toRat_halfUp_mul, ← hbound, Nat.cast_lt] at hlt
    refine ⟨(shortestDecimal x).halfUp places, ofDecimal ((shortestDecimal x).halfUp places), ?_,
      rfl, rfl, ?_, nearestTo_ofRat _ _, isNegative_ofDecimal _⟩
    · rw [Decimal.roundHalfUp?_eq, if_pos hlt]
    · rw [roundHalfUp_finite x h, if_pos hlt]

/-- The number that is written -9.9995. -/
def belowTen : Finite :=
  ⟨true, 5629218059236409, -49, by decide⟩

/-- It lies half way between two thousandths, and rounding it takes one digit more. -/
theorem belowTen_roundedBy : (3 : Int).natAbs ≤ 999999 ∧ RoundedBy belowTen 3 (-10) := by
  have hlimit : (3 : Int).natAbs ≤ 999999 := by decide
  obtain ⟨m, hm⟩ := exists_roundedBy belowTen hlimit
  have hten : ((shortestDecimal belowTen).halfUp 3).toRat = -10 := by decide +kernel
  have hsame := (hm.unique _).mp ((shortestDecimal belowTen).halfUp_spec 3)
  rw [hten] at hsame
  rw [hsame]
  exact ⟨hlimit, hm⟩

end Galley.Binary64
