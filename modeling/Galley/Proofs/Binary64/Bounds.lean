import Mathlib
import Galley.Binary64.Checked
import Galley.Proofs.Binary64.Rounding

/-! # Bounds of results -/

namespace Galley.Binary64

/-- A finite number that is not below `low` and not above `high`. -/
def Within (low high : Rat) (x : Binary64) : Prop :=
  ∃ f : Finite, x = .finite f ∧ low ≤ f.toRat ∧ f.toRat ≤ high

namespace Finite

theorem toRat_of_negative_eq_false {f : Finite} (h : f.negative = false) :
    f.toRat = f.magnitude := by
  rw [toRat, h, if_neg Bool.false_ne_true]

theorem toRat_le_magnitude (f : Finite) : f.toRat ≤ f.magnitude := by
  have hnonneg := f.magnitude_nonneg
  rw [toRat]
  split <;> linarith

theorem toRat_pos_iff (f : Finite) : 0 < f.toRat ↔ f.negative = false ∧ f.significand ≠ 0 := by
  have hpow : (0 : Rat) < 2 ^ f.exponent := by positivity
  cases hnegative : f.negative with
  | true =>
      have hnonneg := f.magnitude_nonneg
      simp [toRat, hnegative, hnonneg]
  | false =>
      rw [toRat_of_negative_eq_false hnegative, magnitude, mul_pos_iff_of_pos_right hpow]
      simp [Nat.pos_iff_ne_zero]

theorem toRat_eq_magnitude {f : Finite} (h : 0 < f.toRat) : f.toRat = f.magnitude :=
  toRat_of_negative_eq_false (f.toRat_pos_iff.mp h).1

end Finite

theorem isNonpositive_finite (f : Finite) :
    (Binary64.finite f).isNonpositive = false ↔ 0 < f.toRat := by
  rw [Finite.toRat_pos_iff]
  simp [isNonpositive, isNegative, isZero]

theorem Within.mono {low high low' high' : Rat} {x : Binary64} (h : Within low high x)
    (hlow : low' ≤ low) (hhigh : high ≤ high') : Within low' high' x := by
  obtain ⟨f, hx, hf, hf'⟩ := h
  exact ⟨f, hx, hlow.trans hf, hf'.trans hhigh⟩

theorem Within.isNonpositive {low high : Rat} {x : Binary64} (h : Within low high x)
    (hlow : 0 < low) : x.isNonpositive = false := by
  obtain ⟨f, rfl, hf, -⟩ := h
  exact (isNonpositive_finite f).mpr (hlow.trans_le hf)

theorem within_ofRat (zeroSign : Bool) {low high x : Rat} (hpos : 0 < low) (hlow : low ≤ x)
    (hhigh : x ≤ high) (hlt : nearest high < 2 ^ (1024 : Int)) :
    Within (nearest low) (nearest high) (ofRat zeroSign x) := by
  have hx := hpos.trans_le hlow
  have hle := nearest_mono hx hhigh
  obtain ⟨f, hf, hnegative, hmagnitude⟩ :=
    (represents_ofMagnitude false hx).exists_finite (hle.trans_lt hlt)
  have hof : ofRat zeroSign x = .finite f := by
    rw [← hf, ← ofRat_signed zeroSign false hx, if_neg Bool.false_ne_true]
  refine ⟨f, hof, ?_, ?_⟩
  · rw [Finite.toRat_of_negative_eq_false hnegative, hmagnitude]
    exact nearest_mono hpos hlow
  · rwa [Finite.toRat_of_negative_eq_false hnegative, hmagnitude]

section Arithmetic

variable {a b c d : Rat} {x y : Binary64}

theorem Within.add (hx : Within a b x) (hy : Within c d y) (hpos : 0 < a + c)
    (hlt : nearest (b + d) < 2 ^ (1024 : Int)) :
    Within (nearest (a + c)) (nearest (b + d)) (x.add y) := by
  obtain ⟨f, rfl, hfa, hfb⟩ := hx
  obtain ⟨g, rfl, hgc, hgd⟩ := hy
  exact within_ofRat _ hpos (add_le_add hfa hgc) (add_le_add hfb hgd) hlt

theorem Within.mul (hx : Within a b x) (hy : Within c d y) (ha : 0 < a) (hc : 0 < c)
    (hlt : nearest (b * d) < 2 ^ (1024 : Int)) :
    Within (nearest (a * c)) (nearest (b * d)) (x.mul y) := by
  obtain ⟨f, rfl, hfa, hfb⟩ := hx
  obtain ⟨g, rfl, hgc, hgd⟩ := hy
  have hf := ha.trans_le hfa
  have hg := hc.trans_le hgc
  have hb := hf.le.trans hfb
  refine within_ofRat _ (mul_pos ha hc) ?_ ?_ hlt
  · gcongr
  · gcongr

theorem Within.div (hx : Within a b x) (hy : Within c d y) (ha : 0 < a) (hc : 0 < c)
    (hlt : nearest (b / c) < 2 ^ (1024 : Int)) :
    ∃ q, x.div y = .ok q ∧ Within (nearest (a / d)) (nearest (b / c)) q := by
  obtain ⟨f, rfl, hfa, hfb⟩ := hx
  obtain ⟨g, rfl, hgc, hgd⟩ := hy
  have hf := ha.trans_le hfa
  have hg := hc.trans_le hgc
  have hnonzero : (Binary64.finite g).isZero = false := by
    simpa [isZero] using (g.toRat_pos_iff.mp hg).2
  have hb := hf.le.trans hfb
  refine ⟨ofRat (f.negative != g.negative) (f.toRat / g.toRat), ?_, ?_⟩
  · simp [Binary64.div, div?, hnonzero]
  · refine within_ofRat _ (div_pos ha (hg.trans_le hgd)) ?_ ?_ hlt
    · gcongr
    · gcongr

theorem Within.ceil (hx : Within a b x) {low high : Int} (hlow : (low : Rat) ≤ a)
    (hhigh : b ≤ high) : ∃ n, x.ceil = .ok n ∧ low ≤ n ∧ n ≤ high := by
  obtain ⟨f, rfl, hfa, hfb⟩ := hx
  refine ⟨f.toRat.ceil, rfl, ?_, ?_⟩
  · exact_mod_cast (hlow.trans hfa).trans Rat.le_ceil
  · exact Rat.ceil_le_iff.mpr (hfb.trans hhigh)

end Arithmetic

end Galley.Binary64
