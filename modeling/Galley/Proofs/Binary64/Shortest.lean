import Mathlib
import Galley.Binary64.Shortest
import Galley.Proofs.Binary64.Rounding

/-! # Shortest decimals read back -/

namespace Galley.Binary64

theorem nearestOnGrid?_reads_back {x : Finite} {exponent : Int} {d : Decimal}
    (h : nearestOnGrid? x exponent = some d) :
    d.negative = x.negative ∧ ofDecimal d = .finite x := by
  have hfind := List.find?_some h
  have hmem := List.mem_of_find?_eq_some h
  obtain ⟨n, -, rfl⟩ := List.mem_map.mp hmem
  exact ⟨rfl, by simpa using hfind⟩

/-- Ten is a multiple of two, so the decimal places of a number come to an end. -/
theorem exists_nat_eq_div_ten_zpow (x : Finite) :
    ∃ n : Nat, x.magnitude / 10 ^ min x.exponent 0 = n := by
  rcases le_total 0 x.exponent with hle | hle
  · obtain ⟨k, hk⟩ := Int.eq_ofNat_of_zero_le hle
    refine ⟨x.significand * 2 ^ k, ?_⟩
    rw [min_eq_right hle, zpow_zero, div_one, Finite.magnitude, hk, zpow_natCast]
    push_cast
    rfl
  · obtain ⟨k, hk⟩ := Int.exists_eq_neg_ofNat hle
    refine ⟨x.significand * 5 ^ k, ?_⟩
    have hten : (10 : Rat) = 2 * 5 := by norm_num
    rw [min_eq_left hle, Finite.magnitude, hk, zpow_neg, zpow_neg, zpow_natCast, zpow_natCast,
      hten, mul_pow]
    push_cast
    field_simp

theorem exactDecimal_magnitude (x : Finite) : (exactDecimal x).magnitude = x.magnitude := by
  obtain ⟨n, hn⟩ := exists_nat_eq_div_ten_zpow x
  have hcoefficient : (exactDecimal x).coefficient = n := by
    change (x.magnitude / 10 ^ min x.exponent 0).floor.toNat = n
    rw [hn, toNat_floor, Nat.floor_natCast]
  rw [Decimal.magnitude, hcoefficient, ← hn]
  exact div_mul_cancel₀ _ (by positivity)

theorem shortestDecimal_reads_back (x : Finite) :
    (shortestDecimal x).negative = x.negative ∧ ofDecimal (shortestDecimal x) = .finite x := by
  rw [shortestDecimal]
  split
  next hzero =>
    refine ⟨rfl, ?_⟩
    have hrat : Decimal.toRat ⟨x.negative, 0, 0⟩ = x.toRat := by
      simp [Decimal.toRat, Decimal.magnitude, Finite.toRat, Finite.magnitude, hzero]
    rw [ofDecimal, hrat, ofRat_toRat]
  next =>
    cases hsome : (List.range 18).findSome? fun (i : Nat) =>
        nearestOnGrid? x (floorLog10 x.magnitude + 1 - i) with
    | some d =>
        obtain ⟨i, -, hi⟩ := List.exists_of_findSome?_eq_some hsome
        simp only [hsome, Option.getD_some]
        exact nearestOnGrid?_reads_back hi
    | none =>
        simp only [hsome, Option.getD_none]
        have hnegative : (exactDecimal x).negative = x.negative := rfl
        refine ⟨hnegative, ?_⟩
        have hrat : (exactDecimal x).toRat = x.toRat := by
          rw [Decimal.toRat, Finite.toRat, exactDecimal_magnitude, hnegative]
        rw [ofDecimal, hrat, hnegative, ofRat_toRat]

/-- The magnitude that is written for a number is one of those that the number is nearest to. -/
theorem nearest_shortestDecimal {x : Finite} (h : x.significand ≠ 0) :
    0 < (shortestDecimal x).magnitude ∧ nearest (shortestDecimal x).magnitude = x.magnitude := by
  obtain ⟨-, hread⟩ := shortestDecimal_reads_back x
  by_cases hzero : (shortestDecimal x).coefficient = 0
  · rw [ofDecimal_of_coefficient_eq_zero hzero] at hread
    exact absurd (congrArg Finite.significand (Binary64.finite.inj hread)).symm h
  · obtain ⟨hpos, hrepresents⟩ := represents_ofDecimal hzero
    rw [hread] at hrepresents
    cases hrepresents with
    | finite _ _ hmagnitude _ => exact ⟨hpos, hmagnitude.symm⟩

end Galley.Binary64
