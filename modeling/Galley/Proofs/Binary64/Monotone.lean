import Mathlib
import Galley.Proofs.Binary64.Order
import Galley.Proofs.Binary64.Places

/-! # Operations that keep the order -/

namespace Galley.Binary64

variable {x y a b : Binary64}

/-! ## Shortest decimals -/

theorem toRat_shortestDecimal_of_significand_eq_zero {f : Finite} (h : f.significand = 0) :
    (shortestDecimal f).toRat = 0 := by
  rw [shortestDecimal, if_pos h]
  simp [Decimal.toRat, Decimal.magnitude]

theorem Finite.significand_eq_zero_of_toRat {f : Finite} (h : f.toRat = 0) :
    f.significand = 0 := by
  have hmagnitude := f.abs_toRat
  rw [h, abs_zero, magnitude, eq_comm, mul_eq_zero] at hmagnitude
  exact_mod_cast hmagnitude.resolve_right (by positivity)

/-- Numbers of one value are the same, or zeros of different signs. -/
theorem Finite.eq_or_eq_zero_of_toRat_eq {f g : Finite} (h : f.toRat = g.toRat) :
    f = g ∨ f.significand = 0 ∧ g.significand = 0 := by
  have hmagnitude : f.magnitude = g.magnitude := by
    rw [← f.abs_toRat, ← g.abs_toRat, h]
  by_cases hnegative : f.negative = g.negative
  · exact .inl (eq_of_magnitude_eq hnegative hmagnitude)
  · right
    have hzero : f.toRat = 0 := by
      rw [toRat, toRat, hmagnitude] at h
      rw [toRat, hmagnitude]
      grind
    exact ⟨significand_eq_zero_of_toRat hzero, significand_eq_zero_of_toRat (h ▸ hzero)⟩

/-- A number is written with a decimal that reads back, so the decimals are in the order of the
numbers. -/
theorem toRat_shortestDecimal_mono {f g : Finite} (h : f.toRat ≤ g.toRat) :
    (shortestDecimal f).toRat ≤ (shortestDecimal g).toRat := by
  by_contra hlt
  have hread := ofRat_mono (shortestDecimal g).negative (shortestDecimal f).negative
    (not_le.mp hlt).le
  change ofDecimal (shortestDecimal g) ≤ ofDecimal (shortestDecimal f) at hread
  rw [(shortestDecimal_reads_back f).2, (shortestDecimal_reads_back g).2, finite_le_finite] at hread
  rcases Finite.eq_or_eq_zero_of_toRat_eq (le_antisymm h hread) with rfl | ⟨hf, hg⟩
  · exact hlt le_rfl
  · rw [toRat_shortestDecimal_of_significand_eq_zero hf,
      toRat_shortestDecimal_of_significand_eq_zero hg] at hlt
    exact hlt le_rfl

/-! ## Rounding to decimal places -/

/-- What can be rounded and is a number at all has a shortest decimal. -/
theorem exists_finite_of_roundHalfUp {places : Int} (h : x.roundHalfUp places = .ok a)
    (hx : x ≠ .nan) :
    ∃ f, x = .finite f ∧ a = ofDecimal ((shortestDecimal f).halfUp places) := by
  unfold roundHalfUp at h
  split at h
  · cases h
  · split at h
    · cases h
    · cases x with
      | nan => exact absurd rfl hx
      | infinity m => cases h
      | finite f =>
          simp only [Decimal.roundHalfUp?_eq] at h
          split at h
          next d hd =>
            split at hd
            · exact ⟨f, rfl, by rw [← Except.ok.inj h, Option.some.inj hd]⟩
            · cases hd
          next => cases h

theorem roundHalfUp_mono {places : Int} (h : x ≤ y) (hx : x.roundHalfUp places = .ok a)
    (hy : y.roundHalfUp places = .ok b) : a ≤ b := by
  obtain ⟨f, rfl, rfl⟩ := exists_finite_of_roundHalfUp hx (ne_nan_of_le h).1
  obtain ⟨g, rfl, rfl⟩ := exists_finite_of_roundHalfUp hy (ne_nan_of_le h).2
  have hshortest := toRat_shortestDecimal_mono (finite_le_finite.mp h)
  exact ofRat_mono _ _ (((shortestDecimal f).halfUp_spec places).mono
    ((shortestDecimal g).halfUp_spec places) hshortest)

/-! ## Arithmetic -/

theorem add_finite_ne_nan (hx : x ≠ .nan) (f : Finite) : x.add (.finite f) ≠ .nan := by
  cases x with
  | nan => exact absurd rfl hx
  | infinity m => exact nofun
  | finite g => exact ofRat_ne_nan _ _

theorem add_mono (h : x ≤ y) (f : Finite) : x.add (.finite f) ≤ y.add (.finite f) := by
  rcases le_cases h with ⟨rfl, hy⟩ | ⟨hx, rfl⟩ | ⟨g, k, rfl, rfl, hle⟩
  · exact infinity_le (add_finite_ne_nan hy f)
  · exact le_infinity (add_finite_ne_nan hx f)
  · exact ofRat_mono _ _ (add_le_add_left hle _)

section Positive

variable {f : Finite} (hf : 0 < f.toRat)
include hf

theorem mul_infinity (m : Bool) : (Binary64.finite f).mul (.infinity m) = .infinity m := by
  obtain ⟨hnegative, hsignificand⟩ := f.toRat_pos_iff.mp hf
  simp [mul, isZero, isNegative, hnegative, hsignificand]

theorem finite_mul_ne_nan (hx : x ≠ .nan) : (Binary64.finite f).mul x ≠ .nan := by
  cases x with
  | nan => exact absurd rfl hx
  | infinity m =>
      rw [mul_infinity hf]
      exact nofun
  | finite g => exact ofRat_ne_nan _ _

theorem mul_mono (h : x ≤ y) : (Binary64.finite f).mul x ≤ (Binary64.finite f).mul y := by
  rcases le_cases h with ⟨rfl, hy⟩ | ⟨hx, rfl⟩ | ⟨g, k, rfl, rfl, hle⟩
  · rw [mul_infinity hf]
    exact infinity_le (finite_mul_ne_nan hf hy)
  · rw [mul_infinity hf]
    exact le_infinity (finite_mul_ne_nan hf hx)
  · exact ofRat_mono _ _ (mul_le_mul_of_nonneg_left hle hf.le)

/-- A product of positive numbers is positive, unless it is too small for a number. -/
theorem isNonpositive_mul (hx : x.isNonpositive = false)
    (hzero : ((Binary64.finite f).mul x).isZero = false) :
    ((Binary64.finite f).mul x).isNonpositive = false := by
  cases x with
  | nan => rfl
  | infinity m =>
      rw [mul_infinity hf]
      exact hx
  | finite g =>
      have hpos := mul_pos hf ((isNonpositive_finite g).mp hx)
      have hsign : ((Binary64.finite f).mul (.finite g)).isNegative = false := by
        rw [mul, ofRat, if_neg hpos.ne', if_neg hpos.not_gt]
        exact isNegative_ofMagnitude false _
      rw [isNonpositive, hsign, hzero, Bool.or_false]

end Positive

theorem isZero_of_div_eq_ok (h : x.div y = .ok a) : y.isZero = false := by
  cases hzero : y.isZero with
  | true =>
      have hnone : x.div? y = none := by
        unfold div?
        exact if_pos hzero
      rw [Binary64.div, hnone] at h
      cases h
  | false => rfl

theorem finite_div_finite (f : Finite) {g : Finite} (hg : 0 < g.toRat) :
    (Binary64.finite f).div (.finite g) =
      .ok (ofRat (f.negative != g.negative) (f.toRat / g.toRat)) := by
  have hnonzero : (Binary64.finite g).isZero = false := by
    simpa [isZero] using (g.toRat_pos_iff.mp hg).2
  simp [Binary64.div, div?, hnonzero]

theorem finite_div_infinity (f : Finite) (m : Bool) :
    (Binary64.finite f).div (.infinity m) = .ok (ofRat (f.negative != m) 0) :=
  rfl

/-- Of what is not negative, a greater divisor leaves no more. -/
theorem div_anti {f : Finite} (hf : 0 ≤ f.toRat) (hx : x.isNonpositive = false) (h : x ≤ y)
    (ha : (Binary64.finite f).div x = .ok a) (hb : (Binary64.finite f).div y = .ok b) :
    b ≤ a := by
  rcases le_cases h with ⟨rfl, -⟩ | ⟨hnan, rfl⟩ | ⟨g, k, rfl, rfl, hle⟩
  · cases hx
  · rw [finite_div_infinity] at hb
    rw [← Except.ok.inj hb]
    cases x with
    | nan => exact absurd rfl hnan
    | infinity m =>
        rw [finite_div_infinity] at ha
        rw [← Except.ok.inj ha]
        exact ofRat_mono _ _ le_rfl
    | finite g =>
        have hg := (isNonpositive_finite g).mp hx
        rw [finite_div_finite f hg] at ha
        rw [← Except.ok.inj ha]
        exact ofRat_mono _ _ (div_nonneg hf hg.le)
  · have hg := (isNonpositive_finite g).mp hx
    rw [finite_div_finite f hg] at ha
    rw [finite_div_finite f (hg.trans_le hle)] at hb
    rw [← Except.ok.inj ha, ← Except.ok.inj hb]
    exact ofRat_mono _ _ (div_le_div_of_nonneg_left hf hg hle)

theorem ceil_mono {m n : Int} (h : x ≤ y) (hx : x.ceil = .ok m) (hy : y.ceil = .ok n) :
    m ≤ n := by
  rcases le_cases h with ⟨rfl, -⟩ | ⟨-, rfl⟩ | ⟨f, g, rfl, rfl, hle⟩
  · cases hx
  · cases hy
  · cases hx
    cases hy
    exact Rat.ceil_le_iff.mpr (hle.trans Rat.le_ceil)

end Galley.Binary64
