import Mathlib
import Galley.Estimate
import Galley.Proofs.Failure

/-! # The stages of pricing an image -/

namespace Galley.LengthGuide

variable {guide : LengthGuide} {mode : ColumnMode} {failure : Failure}

/-! ## Ratios -/

section Ratio

variable {width height ratio : Binary64}

theorem aspectRatio_of_flat (h : height.isNonpositive = true) :
    guide.aspectRatio width height = .error (.mismatch (.heightNotPositive height)) := by
  rw [aspectRatio, if_pos h]
  rfl

theorem aspectRatio_of_upright (h : height.isNonpositive = false) :
    guide.aspectRatio width height =
      ((width.div height).mapError .fault).bind fun quotient =>
        ((quotient.roundHalfUp guide.aspectRatioPlaces).mapError .fault).bind fun ratio =>
          if ratio.isNonpositive then .error (.mismatch (.widthNotPositive width height ratio))
          else .ok ratio := by
  rw [aspectRatio, h]
  rfl

theorem aspectRatio_eq_ok_iff :
    guide.aspectRatio width height = .ok ratio ↔
      height.isNonpositive = false ∧ ratio.isNonpositive = false ∧ ∃ quotient,
        width.div height = .ok quotient ∧
          quotient.roundHalfUp guide.aspectRatioPlaces = .ok ratio := by
  cases hheight : height.isNonpositive with
  | true =>
      rw [aspectRatio_of_flat hheight]
      constructor
      · intro h
        cases h
      · rintro ⟨h, -⟩
        cases h
  | false =>
      rw [aspectRatio_of_upright hheight]
      constructor
      · intro h
        obtain ⟨quotient, hquotient, h⟩ := exists_of_bind_eq_ok h
        obtain ⟨rounded, hrounded, h⟩ := exists_of_bind_eq_ok h
        split at h
        next => cases h
        next hpositive =>
          obtain rfl := Except.ok.inj h
          exact ⟨rfl, by simpa using hpositive, quotient, of_mapError_eq_ok hquotient,
            of_mapError_eq_ok hrounded⟩
      · rintro ⟨-, hpositive, quotient, hquotient, hrounded⟩
        simp [hquotient, hrounded, hpositive, Except.mapError, Except.bind]

end Ratio

/-! ## Prices -/

section Price

variable {ratio share : Binary64}

theorem price_single_eq_ok (h : guide.price ratio .single = .ok share) :
    ∃ quotient, guide.singleColumnWords.div ratio = .ok quotient ∧
      share = quotient.add guide.singleColumnOffset := by
  obtain ⟨quotient, hquotient, hshare⟩ := exists_of_bind_eq_ok h
  exact ⟨quotient, of_mapError_eq_ok hquotient, (Except.ok.inj hshare).symm⟩

theorem price_double_eq_ok (h : guide.price ratio .double = .ok share) :
    ∃ quotient,
      guide.doubleColumnWords.div (guide.doubleColumnScale.mul ratio) = .ok quotient ∧
        share = quotient.add guide.doubleColumnOffset := by
  obtain ⟨quotient, hquotient, hshare⟩ := exists_of_bind_eq_ok h
  exact ⟨quotient, of_mapError_eq_ok hquotient, (Except.ok.inj hshare).symm⟩

theorem wordEquivalent_of_price (h : ratio.isNonpositive = false)
    (hprice : guide.price ratio mode = .ok share) :
    guide.wordEquivalent ratio mode = share.ceil.mapError .fault := by
  rw [wordEquivalent, h, hprice]
  rfl

theorem wordEquivalent_eq_ok {words : Int} (h : guide.wordEquivalent ratio mode = .ok words) :
    ratio.isNonpositive = false ∧ ∃ share, guide.price ratio mode = .ok share ∧
      share.ceil = .ok words := by
  cases hratio : ratio.isNonpositive with
  | true =>
      rw [wordEquivalent, if_pos hratio] at h
      cases h
  | false =>
      cases hprice : guide.price ratio mode with
      | error failure =>
          rw [wordEquivalent, hratio, hprice] at h
          cases h
      | ok share =>
          rw [wordEquivalent_of_price hratio hprice] at h
          exact ⟨rfl, share, rfl, of_mapError_eq_ok h⟩

end Price

/-! ## Estimates -/

section Estimate

variable {image : Image}

theorem estimate_of_aspectRatio_error
    (h : guide.aspectRatio image.width image.height = .error failure) :
    guide.estimate image mode = .error failure := by
  rw [LengthGuide.estimate, h]
  rfl

theorem estimate_of_aspectRatio {ratio : Binary64}
    (h : guide.aspectRatio image.width image.height = .ok ratio) :
    guide.estimate image mode =
      (guide.wordEquivalent ratio mode).map (⟨image.fileName, ratio, ·, mode⟩) := by
  rw [LengthGuide.estimate, h]
  rfl

theorem estimate_eq_ok_iff {estimate : Estimate} :
    guide.estimate image mode = .ok estimate ↔
      guide.aspectRatio image.width image.height = .ok estimate.aspectRatio ∧
      guide.wordEquivalent estimate.aspectRatio mode = .ok estimate.words ∧
      estimate.fileName = image.fileName ∧ estimate.columnMode = mode := by
  constructor
  · intro h
    obtain ⟨ratio, hratio, h⟩ := exists_of_bind_eq_ok h
    obtain ⟨words, hwords, h⟩ := exists_of_bind_eq_ok h
    obtain rfl := Except.ok.inj h
    exact ⟨hratio, hwords, rfl, rfl⟩
  · rintro ⟨hratio, hwords, hname, hmode⟩
    obtain ⟨name, ratio, words, other⟩ := estimate
    obtain rfl : name = image.fileName := hname
    obtain rfl : other = mode := hmode
    rw [estimate_of_aspectRatio hratio, hwords]
    rfl

end Estimate

end Galley.LengthGuide
