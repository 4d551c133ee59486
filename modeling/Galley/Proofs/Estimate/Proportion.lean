import Mathlib
import Galley.Proofs.Binary64.Monotone
import Galley.Proofs.Estimate.Pricing
import Galley.Proofs.Estimate.Stages

/-!
# Wider images cost no more

Every stage from the sizes of an image to its price keeps the order or turns it around: the
quotient, its decimal, the rounded ratio, the share of the words, the sum and the whole number
above it.
-/

namespace Galley

open Binary64

namespace LengthGuide

variable {guide : LengthGuide} {mode : ColumnMode}

/-! ## Prices -/

/-- Words and offsets are finite, words are not negative, and the scale is positive. -/
structure Sensible (guide : LengthGuide) : Prop where
  singleColumnWords : ∃ f, guide.singleColumnWords = .finite f ∧ 0 ≤ f.toRat
  singleColumnOffset : ∃ f, guide.singleColumnOffset = .finite f
  doubleColumnWords : ∃ f, guide.doubleColumnWords = .finite f ∧ 0 ≤ f.toRat
  doubleColumnScale : ∃ f, guide.doubleColumnScale = .finite f ∧ 0 < f.toRat
  doubleColumnOffset : ∃ f, guide.doubleColumnOffset = .finite f

section Price

variable (hguide : guide.Sensible) {ratio ratio' : Binary64}
  (hratio : ratio.isNonpositive = false) (hle : ratio ≤ ratio')
include hguide hratio hle

theorem price_single_anti {share share' : Binary64}
    (h : guide.price ratio .single = .ok share) (h' : guide.price ratio' .single = .ok share') :
    share' ≤ share := by
  obtain ⟨words, hwords, hnonneg⟩ := hguide.singleColumnWords
  obtain ⟨offset, hoffset⟩ := hguide.singleColumnOffset
  obtain ⟨quotient, hquotient, rfl⟩ := price_single_eq_ok h
  obtain ⟨quotient', hquotient', rfl⟩ := price_single_eq_ok h'
  rw [hwords] at hquotient hquotient'
  rw [hoffset]
  exact add_mono (div_anti hnonneg hratio hle hquotient hquotient') offset

theorem price_double_anti {share share' : Binary64}
    (h : guide.price ratio .double = .ok share) (h' : guide.price ratio' .double = .ok share') :
    share' ≤ share := by
  obtain ⟨words, hwords, hnonneg⟩ := hguide.doubleColumnWords
  obtain ⟨scale, hscale, hpos⟩ := hguide.doubleColumnScale
  obtain ⟨offset, hoffset⟩ := hguide.doubleColumnOffset
  obtain ⟨quotient, hquotient, rfl⟩ := price_double_eq_ok h
  obtain ⟨quotient', hquotient', rfl⟩ := price_double_eq_ok h'
  rw [hwords, hscale] at hquotient hquotient'
  rw [hoffset]
  -- A scaled ratio can be too small for a number, but then there is no quotient.
  have hscaled := isNonpositive_mul hpos hratio (isZero_of_div_eq_ok hquotient)
  exact add_mono (div_anti hnonneg hscaled (mul_mono hpos hle) hquotient hquotient') offset

theorem wordEquivalent_anti {words words' : Int}
    (h : guide.wordEquivalent ratio mode = .ok words)
    (h' : guide.wordEquivalent ratio' mode = .ok words') : words' ≤ words := by
  obtain ⟨-, share, hshare, hceil⟩ := wordEquivalent_eq_ok h
  obtain ⟨-, share', hshare', hceil'⟩ := wordEquivalent_eq_ok h'
  cases mode with
  | single => exact ceil_mono (price_single_anti hguide hratio hle hshare hshare') hceil' hceil
  | double => exact ceil_mono (price_double_anti hguide hratio hle hshare hshare') hceil' hceil
  | other label => cases hshare

end Price

end LengthGuide

/-! ## Images -/

/-- The sizes of an image are finite and positive, and these are their exact values. -/
structure Image.Sized (image : Image) (width height : Rat) : Prop where
  width_eq : ∃ f, image.width = .finite f ∧ f.toRat = width
  height_eq : ∃ f, image.height = .finite f ∧ f.toRat = height
  width_pos : 0 < width
  height_pos : 0 < height

theorem Image.Sized.div_eq {image : Image} {width height : Rat} (h : image.Sized width height) :
    image.width.div image.height = .ok (ofRat false (width / height)) := by
  obtain ⟨⟨f, hf, hwidth⟩, ⟨g, hg, hheight⟩, hfpos, hgpos⟩ := h
  rw [← hwidth] at hfpos
  rw [← hheight] at hgpos
  rw [hf, hg, finite_div_finite f hgpos, (f.toRat_pos_iff.mp hfpos).1,
    (g.toRat_pos_iff.mp hgpos).1, hwidth, hheight]
  rfl

theorem Image.Sized.height_isNonpositive {image : Image} {width height : Rat}
    (h : image.Sized width height) : image.height.isNonpositive = false := by
  obtain ⟨g, hg, hheight⟩ := h.height_eq
  rw [hg, isNonpositive_finite, hheight]
  exact h.height_pos

/-- A relatively wider image never has the smaller ratio and never costs more, and images of one
proportion have the same ratio and the same price. -/
theorem relatively_wider_costs_no_more {guide : LengthGuide} (hguide : guide.Sensible)
    {image image' : Image} {width height width' height' : Rat}
    (hsized : image.Sized width height) (hsized' : image'.Sized width' height')
    (mode : ColumnMode) :
    (width * height' ≤ width' * height → ∀ estimate estimate',
      guide.estimate image mode = .ok estimate → guide.estimate image' mode = .ok estimate' →
        estimate'.words ≤ estimate.words ∧ estimate.aspectRatio ≤ estimate'.aspectRatio) ∧
    (width * height' = width' * height → ∀ estimate,
      guide.estimate image mode = .ok estimate → ∃ estimate',
        guide.estimate image' mode = .ok estimate' ∧ estimate'.words = estimate.words ∧
          estimate'.aspectRatio = estimate.aspectRatio) := by
  constructor
  · intro hproportion estimate estimate' h h'
    obtain ⟨hratio, hwords, -⟩ := LengthGuide.estimate_eq_ok_iff.mp h
    obtain ⟨hratio', hwords', -⟩ := LengthGuide.estimate_eq_ok_iff.mp h'
    obtain ⟨-, hpos, quotient, hquotient, hrounded⟩ := LengthGuide.aspectRatio_eq_ok_iff.mp hratio
    obtain ⟨-, -, quotient', hquotient', hrounded'⟩ :=
      LengthGuide.aspectRatio_eq_ok_iff.mp hratio'
    rw [hsized.div_eq] at hquotient
    rw [hsized'.div_eq] at hquotient'
    obtain rfl := Except.ok.inj hquotient
    obtain rfl := Except.ok.inj hquotient'
    have hquotients : width / height ≤ width' / height' :=
      (div_le_div_iff₀ hsized.height_pos hsized'.height_pos).mpr hproportion
    have hratios := roundHalfUp_mono (ofRat_mono _ _ hquotients) hrounded hrounded'
    exact ⟨LengthGuide.wordEquivalent_anti hguide hpos hratios hwords hwords', hratios⟩
  · intro hproportion estimate h
    obtain ⟨hratio, hwords, -, hmode⟩ := LengthGuide.estimate_eq_ok_iff.mp h
    obtain ⟨-, hpos, quotient, hquotient, hrounded⟩ := LengthGuide.aspectRatio_eq_ok_iff.mp hratio
    have hquotients : width / height = width' / height' :=
      (div_eq_div_iff hsized.height_pos.ne' hsized'.height_pos.ne').mpr hproportion
    rw [hsized.div_eq, hquotients, ← hsized'.div_eq] at hquotient
    have hratio' := LengthGuide.aspectRatio_eq_ok_iff.mpr
      ⟨hsized'.height_isNonpositive, hpos, quotient, hquotient, hrounded⟩
    exact ⟨⟨image'.fileName, estimate.aspectRatio, estimate.words, mode⟩,
      LengthGuide.estimate_eq_ok_iff.mpr ⟨hratio', hwords, rfl, rfl⟩, rfl, rfl⟩

/-! ## The default guide -/

theorem exists_finite_ofNat {n : Nat} (h : n ≠ 0) (hexact : nearest n = n)
    (hlt : (n : Rat) < 2 ^ (1024 : Int)) : ∃ f : Finite, ofNat n = .finite f ∧ f.toRat = n := by
  obtain ⟨f, hf, hlow, hhigh⟩ := LengthGuide.within_ofNat h hexact hlt
  exact ⟨f, hf, le_antisymm hhigh hlow⟩

theorem LengthGuide.sensible_default : ({} : LengthGuide).Sensible := by
  have hexact : ∀ n ∈ [150, 20, 300, 40], ∃ f : Finite, ofNat n = .finite f ∧ f.toRat = n := by
    intro n hn
    have hsmall : n ≠ 0 ∧ nearest n = n ∧ (n : Rat) < 2 ^ (1024 : Int) := by
      revert n
      decide +kernel
    exact exists_finite_ofNat hsmall.1 hsmall.2.1 hsmall.2.2
  obtain ⟨scale, hscale, hlow, -⟩ : Within (nearest (1 / 2)) (nearest (1 / 2))
      (ofRat false (1 / 2)) := within_ofRat false (by norm_num) le_rfl le_rfl (by decide +kernel)
  obtain ⟨single, hsingle, hsingleRat⟩ := hexact 150 (by simp)
  obtain ⟨singleOffset, hsingleOffset, -⟩ := hexact 20 (by simp)
  obtain ⟨double, hdouble, hdoubleRat⟩ := hexact 300 (by simp)
  obtain ⟨doubleOffset, hdoubleOffset, -⟩ := hexact 40 (by simp)
  exact
    { singleColumnWords := ⟨single, hsingle, by rw [hsingleRat]; positivity⟩
      singleColumnOffset := ⟨singleOffset, hsingleOffset⟩
      doubleColumnWords := ⟨double, hdouble, by rw [hdoubleRat]; positivity⟩
      doubleColumnScale := ⟨scale, hscale, lt_of_lt_of_le (by decide +kernel) hlow⟩
      doubleColumnOffset := ⟨doubleOffset, hdoubleOffset⟩ }

theorem Image.sized_ofNat {width height : Nat} (name : String)
    (hwidth : width ≠ 0 ∧ nearest width = width ∧ (width : Rat) < 2 ^ (1024 : Int))
    (hheight : height ≠ 0 ∧ nearest height = height ∧ (height : Rat) < 2 ^ (1024 : Int)) :
    Image.Sized ⟨name, .ofNat width, .ofNat height⟩ width height where
  width_eq := exists_finite_ofNat hwidth.1 hwidth.2.1 hwidth.2.2
  height_eq := exists_finite_ofNat hheight.1 hheight.2.1 hheight.2.2
  width_pos := by exact_mod_cast Nat.pos_of_ne_zero hwidth.1
  height_pos := by exact_mod_cast Nat.pos_of_ne_zero hheight.1

/-- An image of 150 by 100 points costs 120 words in one column, and one of 300 by 100 costs 70. -/
theorem wide_costs_no_more_than_narrow :
    ({} : LengthGuide).Sensible ∧
      Image.Sized ⟨"narrow", .ofNat 150, .ofNat 100⟩ 150 100 ∧
      Image.Sized ⟨"wide", .ofNat 300, .ofNat 100⟩ 300 100 ∧
      ({} : LengthGuide).estimate ⟨"narrow", .ofNat 150, .ofNat 100⟩ .single =
        .ok ⟨"narrow", .ofRat false (3 / 2), 120, .single⟩ ∧
      ({} : LengthGuide).estimate ⟨"wide", .ofNat 300, .ofNat 100⟩ .single =
        .ok ⟨"wide", .ofNat 3, 70, .single⟩ ∧
      (70 : Int) ≤ 120 ∧ ofRat false (3 / 2) ≤ ofNat 3 := by
  have hnarrow : ({} : LengthGuide).estimate ⟨"narrow", .ofNat 150, .ofNat 100⟩ .single =
      .ok ⟨"narrow", .ofRat false (3 / 2), 120, .single⟩ := by
    decide +kernel
  have hwide : ({} : LengthGuide).estimate ⟨"wide", .ofNat 300, .ofNat 100⟩ .single =
      .ok ⟨"wide", .ofNat 3, 70, .single⟩ := by
    decide +kernel
  have hsized : Image.Sized ⟨"narrow", .ofNat 150, .ofNat 100⟩ 150 100 := by
    exact_mod_cast Image.sized_ofNat "narrow" (by decide +kernel) (by decide +kernel)
  have hsized' : Image.Sized ⟨"wide", .ofNat 300, .ofNat 100⟩ 300 100 := by
    exact_mod_cast Image.sized_ofNat "wide" (by decide +kernel) (by decide +kernel)
  exact ⟨LengthGuide.sensible_default, hsized, hsized', hnarrow, hwide,
    (relatively_wider_costs_no_more LengthGuide.sensible_default hsized hsized' .single).1
      (by norm_num) _ _ hnarrow hwide⟩

end Galley
