import Mathlib
import Galley.Decimal.HalfUp

/-!
# Rounding decimals half up

What a decimal is rounded to is the multiple of the unit that is nearest to it, and of two that are
as near the one farther from zero.
-/

namespace Galley.Decimal

/-! ## Units -/

/-- An integer is the number of units, or not above the one before it, or not below the one
behind it. -/
theorem eq_or_le_or_le (units : Nat) (n : Int) :
    (n : Rat) = units ∨ (n : Rat) ≤ units - 1 ∨ (units : Rat) + 1 ≤ n := by
  rcases lt_trichotomy n units with hlt | heq | hgt
  · right
    left
    exact_mod_cast Int.le_sub_one_of_lt hlt
  · left
    exact_mod_cast heq
  · right
    right
    exact_mod_cast hgt

section Units

variable {x : Rat} (hx : 0 ≤ x)
include hx

theorem floor_half_bounds : x - 1 / 2 < ⌊x + 1 / 2⌋₊ ∧ (⌊x + 1 / 2⌋₊ : Rat) ≤ x + 1 / 2 := by
  have hlt := Nat.lt_floor_add_one (x + 1 / 2)
  exact ⟨by linarith, Nat.floor_le (by linarith)⟩

theorem abs_sub_floor_half_le (n : Int) : |x - ⌊x + 1 / 2⌋₊| ≤ |x - n| := by
  obtain ⟨hlt, hle⟩ := floor_half_bounds hx
  rcases eq_or_le_or_le ⌊x + 1 / 2⌋₊ n with heq | hbelow | habove
  · rw [heq]
  · rw [abs_of_nonneg (a := x - n) (by linarith), abs_le]
    constructor <;> linarith
  · rw [abs_of_nonpos (a := x - n) (by linarith), abs_le]
    constructor <;> linarith

theorem abs_le_floor_half_of_tie {n : Int} (htie : |x - n| = |x - ⌊x + 1 / 2⌋₊|) :
    |(n : Rat)| ≤ ⌊x + 1 / 2⌋₊ := by
  obtain ⟨hlt, hle⟩ := floor_half_bounds hx
  have hhalf : |x - ⌊x + 1 / 2⌋₊| ≤ 1 / 2 := by
    rw [abs_le]
    constructor <;> linarith
  have hn : -1 < n := by
    have := (abs_le.mp (htie.trans_le hhalf)).2
    exact_mod_cast (by linarith : (-1 : Rat) < n)
  have hnonneg : (0 : Rat) ≤ n := by exact_mod_cast (by omega : 0 ≤ n)
  rw [abs_of_nonneg hnonneg]
  rcases eq_or_le_or_le ⌊x + 1 / 2⌋₊ n with heq | hbelow | habove
  · exact heq.le
  · linarith
  · rw [abs_of_nonpos (a := x - n) (by linarith)] at htie
    have := (abs_le.mp hhalf).1
    have := le_abs_self (x - ⌊x + 1 / 2⌋₊)
    linarith

end Units

/-! ## Decimals -/

/-- What `x` is rounded to at a number of decimal places: a multiple of the unit such that no other
is nearer, and none that is as near is farther from zero. -/
structure HalfUp (x : Rat) (places : Int) (m : Rat) : Prop where
  multiple : ∃ n : Int, m = n * 10 ^ (-places)
  nearest : ∀ n : Int, |x - m| ≤ |x - n * 10 ^ (-places)|
  away : ∀ n : Int, |x - n * 10 ^ (-places)| = |x - m| → |(n : Rat) * 10 ^ (-places)| ≤ |m|

/-- No two numbers are both what `x` is rounded to. -/
theorem HalfUp.unique {x m m' : Rat} {places : Int} (h : HalfUp x places m)
    (h' : HalfUp x places m') : m = m' := by
  obtain ⟨n, rfl⟩ := h.multiple
  obtain ⟨n', rfl⟩ := h'.multiple
  have hdistance := le_antisymm (h.nearest n') (h'.nearest n)
  have habs := le_antisymm (h'.away n hdistance) (h.away n' hdistance.symm)
  rcases abs_eq_abs.mp habs with hsame | hopposite
  · exact hsame
  · -- Opposite numbers are as near only to zero, and zero is rounded to itself.
    rcases abs_eq_abs.mp hdistance with hleft | hleft
    · linarith
    · have hzero := h.nearest 0
      have hx : x = 0 := by linarith
      rw [hx, Int.cast_zero, zero_mul, sub_zero, abs_zero, zero_sub, abs_neg] at hzero
      rw [hopposite, abs_neg] at hzero
      have := abs_eq_zero.mp (le_antisymm hzero (abs_nonneg _))
      rw [hopposite, this, neg_zero]

/-- Rounding keeps the order. -/
theorem HalfUp.mono {x x' m m' : Rat} {places : Int} (h : HalfUp x places m)
    (h' : HalfUp x' places m') (hle : x ≤ x') : m ≤ m' := by
  by_contra hlt
  obtain ⟨n, hn⟩ := h.multiple
  obtain ⟨n', hn'⟩ := h'.multiple
  have hnear := h.nearest n'
  have hnear' := h'.nearest n
  rw [← hn'] at hnear
  rw [← hn] at hnear'
  -- Both numbers lie half way, so they are the same one.
  have hsame : x = x' := by grind
  rw [← hsame] at h'
  exact hlt (h.unique h').le

variable (d : Decimal) (places : Int)

/-- The decimal that `d` is rounded to, of any number of digits. -/
def halfUp : Decimal :=
  ⟨d.negative, d.unitsHalfUp places, -places⟩

theorem roundHalfUp?_eq :
    d.roundHalfUp? places =
      if d.unitsHalfUp places < coefficientBound then some (d.halfUp places) else none :=
  rfl

theorem unitsHalfUp_eq : d.unitsHalfUp places = ⌊d.magnitude * 10 ^ places + 1 / 2⌋₊ :=
  Int.floor_toNat (d.magnitude * 10 ^ places + 1 / 2)

theorem magnitude_nonneg : 0 ≤ d.magnitude := by
  rw [magnitude]
  positivity

/-- The distance of a decimal from a multiple of the unit, by magnitude and in units. -/
theorem abs_toRat_sub (n : Int) :
    |d.toRat - n * 10 ^ (-places)| =
      |d.magnitude * 10 ^ places - ((if d.negative then -n else n : Int) : Rat)| *
        10 ^ (-places) := by
  have hunit : (0 : Rat) < 10 ^ (-places) := by positivity
  have hone : (10 : Rat) ^ places * 10 ^ (-places) = 1 := by
    rw [← zpow_add₀ (by norm_num), add_neg_cancel, zpow_zero]
  have hscaled : d.magnitude * 10 ^ places * 10 ^ (-places) = d.magnitude := by
    rw [mul_assoc, hone, mul_one]
  rw [← abs_of_pos hunit, ← abs_mul, abs_of_pos hunit, sub_mul, hscaled, toRat]
  cases d.negative with
  | true =>
      rw [if_pos rfl, if_pos rfl, Int.cast_neg, neg_mul, sub_neg_eq_add, neg_sub_left, abs_neg,
        add_comm]
  | false => rfl

theorem toRat_halfUp :
    (d.halfUp places).toRat =
      ((if d.negative then -(d.unitsHalfUp places : Int) else d.unitsHalfUp places : Int) : Rat) *
        10 ^ (-places) := by
  rw [toRat, magnitude, halfUp]
  cases d.negative <;> simp

theorem abs_toRat_halfUp :
    |(d.halfUp places).toRat| = d.unitsHalfUp places * 10 ^ (-places) := by
  have hunit : (0 : Rat) < 10 ^ (-places) := by positivity
  rw [toRat_halfUp, abs_mul, abs_of_pos hunit]
  cases d.negative <;> simp

theorem halfUp_spec : HalfUp d.toRat places (d.halfUp places).toRat := by
  have hunit : (0 : Rat) < 10 ^ (-places) := by positivity
  have hscaled : 0 ≤ d.magnitude * 10 ^ places :=
    mul_nonneg d.magnitude_nonneg (by positivity)
  have hself : |d.toRat - (d.halfUp places).toRat| =
      |d.magnitude * 10 ^ places - d.unitsHalfUp places| * 10 ^ (-places) := by
    rw [toRat_halfUp, abs_toRat_sub]
    cases d.negative <;> simp
  rw [unitsHalfUp_eq] at hself
  refine ⟨⟨_, d.toRat_halfUp places⟩, ?_, ?_⟩
  · intro n
    rw [hself, abs_toRat_sub]
    exact mul_le_mul_of_nonneg_right (abs_sub_floor_half_le hscaled _) hunit.le
  · intro n htie
    rw [hself, abs_toRat_sub] at htie
    have haway := abs_le_floor_half_of_tie hscaled (mul_right_cancel₀ hunit.ne' htie)
    rw [abs_toRat_halfUp, unitsHalfUp_eq, abs_mul, abs_of_pos hunit]
    refine mul_le_mul_of_nonneg_right (le_trans (le_of_eq ?_) haway) hunit.le
    cases d.negative <;> simp

end Galley.Decimal
