import Mathlib
import Galley.Binary64.Checked
import Galley.Proofs.Binary64.Shortest

/-! # How many units numbers are rounded to -/

namespace Galley.Binary64

theorem le_unitsHalfUp_iff (d : Decimal) (n : Nat) (places : Int) (hn : n ≠ 0) :
    n ≤ d.unitsHalfUp places ↔ (n - 1 / 2) / 10 ^ places ≤ d.magnitude := by
  have hpow : (0 : Rat) < 10 ^ places := by positivity
  rw [Decimal.unitsHalfUp, toNat_floor, Nat.le_floor_iff' hn, div_le_iff₀ hpow]
  constructor <;> intro h <;> linarith

/-- A number has at least `n` units exactly when it is not below a bound `v`, if one and the same
number is nearest to `v` and to the least decimal with `n` units, is not below `v`, and is written
with `n` units itself. -/
theorem le_unitsHalfUp_shortestDecimal_iff {n significand : Nat} {places exponent : Int} {v : Rat}
    (hn : n ≠ 0) (hv : 0 < v) (hcanonical : Canonical significand exponent)
    (hnear : nearest v = significand * 2 ^ exponent)
    (hleast : nearest ((n - 1 / 2) / 10 ^ places) = significand * 2 ^ exponent)
    (hle : v ≤ significand * 2 ^ exponent)
    (hself : ∀ negative, n ≤
      (shortestDecimal ⟨negative, significand, exponent, hcanonical⟩).unitsHalfUp places)
    {x : Finite} (hx : x.significand ≠ 0) :
    n ≤ (shortestDecimal x).unitsHalfUp places ↔ v ≤ x.magnitude := by
  obtain ⟨hpos, hnearest⟩ := nearest_shortestDecimal hx
  have hleastPos : (0 : Rat) < (n - 1 / 2) / 10 ^ places := by
    have hone : (1 : Rat) ≤ n := by exact_mod_cast Nat.one_le_iff_ne_zero.mpr hn
    have : (0 : Rat) < n - 1 / 2 := by linarith
    positivity
  have hmagnitude : x.magnitude ≠ 0 := by
    rw [Finite.magnitude]
    positivity
  constructor
  · intro h
    rw [le_unitsHalfUp_iff _ _ _ hn] at h
    calc v ≤ significand * 2 ^ exponent := hle
      _ = nearest ((n - 1 / 2) / 10 ^ places) := hleast.symm
      _ ≤ nearest (shortestDecimal x).magnitude := nearest_mono hleastPos h
      _ = x.magnitude := hnearest
  · intro h
    by_contra hlt
    have hbelow := not_le.mp (mt (le_unitsHalfUp_iff _ _ _ hn).mpr hlt)
    have heq : x.magnitude = significand * 2 ^ exponent := by
      apply le_antisymm
      · rw [← hnearest, ← hleast]
        exact nearest_mono hpos hbelow.le
      · rw [← Finite.nearest_magnitude hmagnitude, ← hnear]
        exact nearest_mono hv h
    have hself' : x = ⟨x.negative, significand, exponent, hcanonical⟩ :=
      Finite.eq_of_magnitude_eq rfl heq
    rw [hself'] at hlt
    exact hlt (hself x.negative)

/-! ## Three decimal places -/

theorem unitsHalfUp_of_significand_eq_zero {x : Finite} (h : x.significand = 0) :
    (shortestDecimal x).unitsHalfUp 3 = 0 := by
  rw [shortestDecimal, if_pos h]
  cases x.negative <;> decide +kernel

theorem magnitude_of_significand_eq_zero {x : Finite} (h : x.significand = 0) :
    x.magnitude = 0 := by
  rw [Finite.magnitude, h, Nat.cast_zero, zero_mul]

/-- More than 28 digits are needed from `10 ^ 25` on. -/
theorem coefficientBound_le_unitsHalfUp_iff (x : Finite) :
    Decimal.coefficientBound ≤ (shortestDecimal x).unitsHalfUp 3 ↔ 10 ^ 25 ≤ x.magnitude := by
  by_cases hx : x.significand = 0
  · rw [unitsHalfUp_of_significand_eq_zero hx, magnitude_of_significand_eq_zero hx]
    norm_num [Decimal.coefficientBound]
  · exact le_unitsHalfUp_shortestDecimal_iff (by decide) (by positivity)
      (by decide : Canonical 4656612873077393 31)
      (by decide +kernel) (by decide +kernel) (by decide +kernel) (by decide +kernel) hx

/-- There is a unit at least from half a unit on. -/
theorem one_le_unitsHalfUp_iff (x : Finite) :
    1 ≤ (shortestDecimal x).unitsHalfUp 3 ↔ 1 / 2000 ≤ x.magnitude := by
  by_cases hx : x.significand = 0
  · rw [unitsHalfUp_of_significand_eq_zero hx, magnitude_of_significand_eq_zero hx]
    norm_num
  · exact le_unitsHalfUp_shortestDecimal_iff one_ne_zero (by positivity)
      (by decide : Canonical 4611686018427388 (-63))
      (by decide +kernel) (by decide +kernel) (by decide +kernel) (by decide +kernel) hx

end Galley.Binary64
