import Mathlib
import Galley.Proofs.Binary64.Monotone
import Galley.Proofs.Estimate.Pricing
import Galley.Proofs.Estimate.Stages

/-!
# Every outcome of pricing an image

With the default guide the height, the quotient of the sizes and its shortest decimal decide how
pricing an image ends.
-/

namespace Galley

namespace Binary64

/-! ## Bounds that shortest decimals share with their numbers -/

/-- A number is not below a bound exactly when its decimal is not, if that holds of the number
nearest to the bound. -/
theorem le_shortestDecimal_iff {v : Rat} {nearestToBound : Finite}
    (hnearest : ofRat false v = .finite nearestToBound) (hle : v ≤ nearestToBound.toRat)
    (hself : v ≤ (shortestDecimal nearestToBound).toRat) (x : Finite) :
    v ≤ (shortestDecimal x).toRat ↔ v ≤ x.toRat := by
  constructor
  · intro h
    have hmono := ofRat_mono false (shortestDecimal x).negative h
    change ofRat false v ≤ ofDecimal (shortestDecimal x) at hmono
    rw [hnearest, (shortestDecimal_reads_back x).2] at hmono
    exact hle.trans hmono
  · intro h
    have hmono := ofRat_mono false x.negative h
    rw [hnearest, ofRat_toRat] at hmono
    exact hself.trans (toRat_shortestDecimal_mono hmono)

theorem shortestDecimal_le_iff {v : Rat} {nearestToBound : Finite}
    (hnearest : ofRat false v = .finite nearestToBound) (hle : nearestToBound.toRat ≤ v)
    (hself : (shortestDecimal nearestToBound).toRat ≤ v) (x : Finite) :
    (shortestDecimal x).toRat ≤ v ↔ x.toRat ≤ v := by
  constructor
  · intro h
    have hmono := ofRat_mono (shortestDecimal x).negative false h
    change ofDecimal (shortestDecimal x) ≤ ofRat false v at hmono
    rw [hnearest, (shortestDecimal_reads_back x).2] at hmono
    exact le_trans hmono hle
  · intro h
    have hmono := ofRat_mono x.negative false h
    rw [hnearest, ofRat_toRat] at hmono
    exact (toRat_shortestDecimal_mono hmono).trans hself

theorem half_thousandth_le_shortestDecimal_iff (x : Finite) :
    1 / 2000 ≤ (shortestDecimal x).toRat ↔ 1 / 2000 ≤ x.toRat := by
  have hnearest : ofRat false (1 / 2000) =
      .finite ⟨false, 4611686018427388, -63, by decide⟩ := by
    decide +kernel
  exact le_shortestDecimal_iff hnearest (by decide +kernel) (by decide +kernel) x

theorem le_abs_shortestDecimal_iff (x : Finite) :
    10 ^ 25 ≤ |(shortestDecimal x).toRat| ↔ 10 ^ 25 ≤ x.magnitude := by
  have hnearest : ofRat false (10 ^ 25) = .finite ⟨false, 4656612873077393, 31, by decide⟩ := by
    decide +kernel
  have hnearestNeg : ofRat false (-10 ^ 25) =
      .finite ⟨true, 4656612873077393, 31, by decide⟩ := by
    decide +kernel
  have hpositive : 10 ^ 25 ≤ (shortestDecimal x).toRat ↔ 10 ^ 25 ≤ x.toRat :=
    le_shortestDecimal_iff hnearest (by decide +kernel) (by decide +kernel) x
  have hnegative : (shortestDecimal x).toRat ≤ -10 ^ 25 ↔ x.toRat ≤ -10 ^ 25 :=
    shortestDecimal_le_iff hnearestNeg (by decide +kernel) (by decide +kernel) x
  rw [← x.abs_toRat, le_abs', le_abs', hpositive, hnegative]

theorem ofRat_le_of_within {low high v : Rat} {x : Binary64} (h : Within low high x)
    (hpos : 0 < v) (hle : nearest v ≤ low) (hlt : nearest v < 2 ^ (1024 : Int)) :
    ofRat false v ≤ x := by
  obtain ⟨f, rfl, hlow, -⟩ := h
  obtain ⟨g, hg, -, hhigh⟩ := within_ofRat false hpos le_rfl le_rfl hlt
  rw [hg]
  exact hhigh.trans (hle.trans hlow)

end Binary64

open Binary64

/-! ## Outcomes -/

/-- What the default guide makes of an image, with the words that it can cost in a column mode. -/
structure Outcome (image : Image) (mode : ColumnMode) (low high : Int) : Prop where
  mismatch : (∃ cause, ({} : LengthGuide).estimate image mode = .error (.mismatch cause)) ↔
    image.height ≤ zero false ∨ ¬ image.height ≤ zero false ∧
      ∃ x, image.width.div? image.height = some (.finite x) ∧
        -10 ^ 25 < (shortestDecimal x).toRat ∧ (shortestDecimal x).toRat < 5 / 10000
  refused : ({} : LengthGuide).estimate image mode = .error (.fault .coefficientTooLong) ↔
    ¬ image.height ≤ zero false ∧
      ((∃ negative, image.width.div? image.height = some (.infinity negative)) ∨
        ∃ x, image.width.div? image.height = some (.finite x) ∧
          10 ^ 25 ≤ |(shortestDecimal x).toRat|)
  undefined : ({} : LengthGuide).estimate image mode = .error (.fault .ceilingOfNan) ↔
    ¬ image.height ≤ zero false ∧ image.width.div? image.height = some .nan
  priced : (∃ estimate, ({} : LengthGuide).estimate image mode = .ok estimate) ↔
    ¬ image.height ≤ zero false ∧ ∃ x, image.width.div? image.height = some (.finite x) ∧
      5 / 10000 ≤ (shortestDecimal x).toRat ∧ (shortestDecimal x).toRat < 10 ^ 25
  bounded : ∀ estimate, ({} : LengthGuide).estimate image mode = .ok estimate →
    ofRat false (1 / 1000) ≤ estimate.aspectRatio ∧ low ≤ estimate.words ∧ estimate.words ≤ high
  failures : ∀ failure, ({} : LengthGuide).estimate image mode = .error failure →
    (∃ cause, failure = .mismatch cause) ∨ failure = .fault .coefficientTooLong ∨
      failure = .fault .ceilingOfNan

section Outcome

variable {image : Image} {mode : ColumnMode}

theorem not_le_zero_iff (x : Binary64) : ¬ x ≤ zero false ↔ x.isNonpositive = false := by
  rw [← isNonpositive_iff_le_zero, Bool.not_eq_true]

/-- A quotient that is neither excessive nor too small, in terms of its decimal. -/
theorem fair_iff (x : Finite) :
    1 / 2000 ≤ x.toRat ∧ x.toRat < 10 ^ 25 ↔
      5 / 10000 ≤ (shortestDecimal x).toRat ∧ (shortestDecimal x).toRat < 10 ^ 25 := by
  have hlow := half_thousandth_le_shortestDecimal_iff x
  have hhigh := le_abs_shortestDecimal_iff x
  rw [← x.abs_toRat] at hhigh
  grind

theorem narrow_iff (x : Finite) :
    x.magnitude < 10 ^ 25 ∧ x.toRat < 1 / 2000 ↔
      -10 ^ 25 < (shortestDecimal x).toRat ∧ (shortestDecimal x).toRat < 5 / 10000 := by
  have hlow := half_thousandth_le_shortestDecimal_iff x
  have hhigh := le_abs_shortestDecimal_iff x
  grind

theorem exists_mismatch_iff (hmode : mode = .single ∨ mode = .double) :
    (∃ cause, ({} : LengthGuide).estimate image mode = .error (.mismatch cause)) ↔
      image.height.isNonpositive = true ∨ image.height.isNonpositive = false ∧
        ∃ x, image.width.div? image.height = some (.finite x) ∧
          x.magnitude < 10 ^ 25 ∧ x.toRat < 1 / 2000 := by
  constructor
  · rintro ⟨cause, hcause⟩
    have hprices := estimate_prices image hmode
    rw [hcause] at hprices
    cases hprices with
    | flat hflat => exact .inl hflat
    | narrow hheight hq hlt hnarrow => exact .inr ⟨hheight, _, hq, hlt, hnarrow⟩
  · rintro (hflat | ⟨hheight, x, hq, hlt, hnarrow⟩)
    · exact ⟨_, LengthGuide.estimate_of_aspectRatio_error (LengthGuide.aspectRatio_of_flat hflat)⟩
    · obtain ⟨ratio, hratio⟩ := LengthGuide.aspectRatio_of_narrow hheight hq hlt hnarrow
      exact ⟨_, LengthGuide.estimate_of_aspectRatio_error hratio⟩

theorem faulty_coefficientTooLong_iff :
    image.Faulty .coefficientTooLong ↔ image.height.isNonpositive = false ∧
      ((∃ negative, image.width.div? image.height = some (.infinity negative)) ∨
        ∃ x, image.width.div? image.height = some (.finite x) ∧ 10 ^ 25 ≤ x.magnitude) := by
  constructor
  · rintro ⟨⟩
    next q hheight hq hexcessive =>
      cases q with
      | nan => exact absurd hexcessive id
      | infinity negative => exact ⟨hheight, .inl ⟨negative, hq⟩⟩
      | finite x => exact ⟨hheight, .inr ⟨x, hq, hexcessive⟩⟩
  · rintro ⟨hheight, ⟨negative, hq⟩ | ⟨x, hq, hle⟩⟩
    · exact .excessive hheight hq trivial
    · exact .excessive hheight hq hle

theorem faulty_ceilingOfNan_iff :
    image.Faulty .ceilingOfNan ↔
      image.height.isNonpositive = false ∧ image.width.div? image.height = some .nan := by
  constructor
  · rintro ⟨⟩
    next hheight hq => exact ⟨hheight, hq⟩
  · rintro ⟨hheight, hq⟩
    exact .undefined hheight hq

theorem bounds_of_estimate_eq_ok {low high : Int} (hmode : mode = .single ∨ mode = .double)
    (hprice : ∀ {ratio}, Within (nearest (1 / 1000)) (nearest (10 ^ 25)) ratio →
      ∃ share, ({} : LengthGuide).price ratio mode = .ok share ∧ Within low high share)
    {estimate : Estimate} (h : ({} : LengthGuide).estimate image mode = .ok estimate) :
    ofRat false (1 / 1000) ≤ estimate.aspectRatio ∧ low ≤ estimate.words ∧
      estimate.words ≤ high := by
  obtain ⟨hheight, x, hq, hlow, hhigh⟩ :=
    (estimate_prices image hmode).exists_ok_iff.mp ⟨estimate, h⟩
  obtain ⟨haspect, hwords, -, -⟩ := LengthGuide.estimate_eq_ok_iff.mp h
  obtain ⟨ratio, hratio, hwithin⟩ := LengthGuide.aspectRatio_of_fair hheight hq hlow hhigh
  obtain rfl : ratio = estimate.aspectRatio := Except.ok.inj (hratio.symm.trans haspect)
  obtain ⟨share, hshare, hbounds⟩ := hprice hwithin
  obtain ⟨words, hprices, hle, hge⟩ := LengthGuide.exists_wordEquivalent_of_price
    (hwithin.isNonpositive (by decide +kernel)) hshare hbounds
  obtain rfl : words = estimate.words := Except.ok.inj (hprices.symm.trans hwords)
  exact ⟨ofRat_le_of_within hwithin (by norm_num) le_rfl (by decide +kernel), hle, hge⟩

theorem failure_of_estimate_eq_error (hmode : mode = .single ∨ mode = .double)
    {failure : Failure} (h : ({} : LengthGuide).estimate image mode = .error failure) :
    (∃ cause, failure = .mismatch cause) ∨ failure = .fault .coefficientTooLong ∨
      failure = .fault .ceilingOfNan := by
  have hprices := estimate_prices image hmode
  rw [h] at hprices
  cases hprices with
  | flat => exact .inl ⟨_, rfl⟩
  | undefined => exact .inr (.inr rfl)
  | excessive => exact .inr (.inl rfl)
  | narrow => exact .inl ⟨_, rfl⟩

/-- Outcomes are known once it is known what the ratios that images can have are priced at. -/
theorem outcome_of_price {low high : Int} (hmode : mode = .single ∨ mode = .double)
    (hprice : ∀ {ratio}, Within (nearest (1 / 1000)) (nearest (10 ^ 25)) ratio →
      ∃ share, ({} : LengthGuide).price ratio mode = .ok share ∧ Within low high share)
    (image : Image) : Outcome image mode low high where
  mismatch := by
    rw [exists_mismatch_iff hmode, isNonpositive_iff_le_zero, ← not_le_zero_iff]
    simp only [narrow_iff]
  refused := by
    rw [(estimate_prices image hmode).eq_fault_iff, faulty_coefficientTooLong_iff, not_le_zero_iff]
    simp only [le_abs_shortestDecimal_iff]
  undefined := by
    rw [(estimate_prices image hmode).eq_fault_iff, faulty_ceilingOfNan_iff, not_le_zero_iff]
  priced := by
    rw [(estimate_prices image hmode).exists_ok_iff, Image.Fair, not_le_zero_iff]
    simp only [fair_iff]
  bounded _ h := bounds_of_estimate_eq_ok hmode hprice h
  failures _ h := failure_of_estimate_eq_error hmode h

/-- How pricing any image ends in either mode, and between which bounds its price lies. -/
theorem estimate_outcome (image : Image) :
    Outcome image .single 20 150020 ∧ Outcome image .double 40 600040 :=
  ⟨outcome_of_price (.inl rfl) LengthGuide.price_single image,
    outcome_of_price (.inr rfl) LengthGuide.price_double image⟩

end Outcome

end Galley
