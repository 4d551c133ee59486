import Mathlib
import Galley.Proofs.Binary64.Nearest

/-!
# Neighbouring numbers

Of two neighbours, one has an odd significand. So of either sign there is only one number that a
rational number is rounded to, also where two numbers are equally near.
-/

namespace Galley.Binary64

/-! ## Even significands -/

/-- An even significand can grow by one without getting too long. -/
theorem canonical_succ {f : Finite} (heven : Even f.significand) :
    Canonical (f.significand + 1) f.exponent := by
  obtain ⟨hshort, hlow, hhigh, hlong⟩ := f.canonical
  have hmod := Nat.even_iff.mp heven
  exact ⟨by omega, hlow, hhigh, by omega⟩

/-- Numbers with even significands are no neighbours. -/
theorem exists_between {f g : Finite} (hlt : f.magnitude < g.magnitude)
    (hf : Even f.significand) (hg : Even g.significand) (negative : Bool) :
    ∃ c : Finite, c.negative = negative ∧ f.magnitude < c.magnitude ∧
      c.magnitude < g.magnitude := by
  have hunit : (0 : Rat) < 2 ^ f.exponent := by positivity
  obtain ⟨k, hk⟩ := Int.eq_ofNat_of_zero_le
    (sub_nonneg.mpr (Finite.exponent_le_of_magnitude_le hlt.le))
  -- Both magnitudes are counted in units of the lesser one.
  have hscaled : g.magnitude = (g.significand * 2 ^ k : Nat) * 2 ^ f.exponent := by
    have hsum : g.exponent = k + f.exponent := by omega
    rw [Finite.magnitude, hsum, zpow_add₀ two_ne_zero, zpow_natCast]
    push_cast
    ring
  have hunits : f.significand < g.significand * 2 ^ k := by
    rw [hscaled, Finite.magnitude, mul_lt_mul_iff_left₀ hunit] at hlt
    exact_mod_cast hlt
  have hne : f.significand + 1 ≠ g.significand * 2 ^ k := by
    intro heq
    have heven : Even (f.significand + 1) := heq ▸ hg.mul_right _
    exact Nat.even_add_one.mp heven hf
  refine ⟨⟨negative, f.significand + 1, f.exponent, canonical_succ hf⟩, rfl, ?_, ?_⟩
  · rw [Finite.magnitude, Finite.magnitude, mul_lt_mul_iff_left₀ hunit]
    exact_mod_cast Nat.lt_succ_self _
  · rw [hscaled, Finite.magnitude, mul_lt_mul_iff_left₀ hunit]
    exact_mod_cast lt_of_le_of_ne hunits hne

/-! ## Ties -/

/-- What lies between the ends of an interval is nearer to its middle than the ends are. -/
theorem abs_sub_lt_of_between {a b c x : Rat} (htie : |a - x| = |b - x|) (hac : a < c)
    (hcb : c < b) : |c - x| < |a - x| := by
  rcases abs_eq_abs.mp htie with hsame | hopposite
  · linarith
  · rw [abs_lt, abs_of_neg (by linarith)]
    constructor <;> linarith

theorem toRat_between {f c g : Finite} (hf : f.negative = c.negative) (hg : g.negative = c.negative)
    (hfc : f.magnitude < c.magnitude) (hcg : c.magnitude < g.magnitude) :
    f.toRat < c.toRat ∧ c.toRat < g.toRat ∨ g.toRat < c.toRat ∧ c.toRat < f.toRat := by
  rw [Finite.toRat, Finite.toRat, Finite.toRat, hf, hg]
  cases c.negative with
  | true => exact .inr ⟨neg_lt_neg hcg, neg_lt_neg hfc⟩
  | false => exact .inl ⟨hfc, hcg⟩

theorem exists_nearer_of_tie {f g : Finite} {x : Rat} (hsign : f.negative = g.negative)
    (htie : |f.toRat - x| = |g.toRat - x|) (hlt : f.magnitude < g.magnitude)
    (hf : Even f.significand) (hg : Even g.significand) :
    ∃ c : Finite, |c.toRat - x| < |f.toRat - x| := by
  obtain ⟨c, hnegative, hfc, hcg⟩ := exists_between hlt hf hg f.negative
  refine ⟨c, ?_⟩
  rcases toRat_between hnegative.symm (hsign.symm.trans hnegative.symm) hfc hcg with h | h
  · exact abs_sub_lt_of_between htie h.1 h.2
  · rw [htie]
    exact abs_sub_lt_of_between htie.symm h.1 h.2

/-! ## One nearest number -/

namespace NearestTo

variable {x : Rat}

theorem abs_lt_overflowBound {f : Finite} (h : NearestTo x (.finite f)) : |x| < overflowBound := by
  cases h
  assumption

theorem overflowBound_le_abs {negative : Bool} (h : NearestTo x (.infinity negative)) :
    overflowBound ≤ |x| := by
  cases h with
  | infinity _ hle =>
      cases negative with
      | true => exact hle.trans (neg_le_abs x)
      | false => exact hle.trans (le_abs_self x)

theorem finite_unique {f g : Finite} (hf : NearestTo x (.finite f)) (hg : NearestTo x (.finite g))
    (hsign : f.negative = g.negative) : f = g := by
  cases hf with
  | finite _ _ hnear htie =>
      cases hg with
      | finite _ _ hnear' htie' =>
          have hdistance : |f.toRat - x| = |g.toRat - x| := le_antisymm (hnear g) (hnear' f)
          by_contra hne
          have hmagnitude : f.magnitude ≠ g.magnitude :=
            fun heq => hne (Finite.eq_of_magnitude_eq hsign heq)
          have hvalue : f.toRat ≠ g.toRat := by
            intro heq
            rw [← f.abs_toRat, ← g.abs_toRat, heq] at hmagnitude
            exact hmagnitude rfl
          have hevenF := htie g hdistance.symm hvalue.symm
          have hevenG := htie' f hdistance hvalue
          rcases lt_or_gt_of_ne hmagnitude with hlt | hgt
          · obtain ⟨c, hc⟩ := exists_nearer_of_tie hsign hdistance hlt hevenF hevenG
            exact absurd (hnear c) (not_le.mpr hc)
          · obtain ⟨c, hc⟩ := exists_nearer_of_tie hsign.symm hdistance.symm hgt hevenG hevenF
            exact absurd (hnear' c) (not_le.mpr hc)

/-- Of either sign there is one number at most that a rational number is rounded to. -/
theorem eq_of_isNegative_eq {y z : Binary64} (hy : NearestTo x y) (hz : NearestTo x z)
    (hsign : y.isNegative = z.isNegative) : y = z := by
  cases y with
  | nan => cases hy
  | infinity negative =>
      cases z with
      | nan => cases hz
      | infinity negative' => exact congrArg _ hsign
      | finite g => exact absurd hz.abs_lt_overflowBound (not_lt.mpr hy.overflowBound_le_abs)
  | finite f =>
      cases z with
      | nan => cases hz
      | infinity negative' =>
          exact absurd hy.abs_lt_overflowBound (not_lt.mpr hz.overflowBound_le_abs)
      | finite g => exact congrArg _ (hy.finite_unique hz hsign)

end NearestTo

end Galley.Binary64
