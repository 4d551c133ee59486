import Mathlib
import Galley.Estimate
import Galley.Proofs.Binary64.Bounds
import Galley.Proofs.Binary64.HalfUp
import Galley.Proofs.Binary64.Places
import Galley.Proofs.Estimate.Stages

/-! # What the default guide makes of an image -/

namespace Galley

namespace Binary64

/-- Too great for a ratio of 28 digits, three of them behind the dot. -/
def Excessive : Binary64 → Prop
  | .nan => False
  | .infinity _ => True
  | .finite x => 10 ^ 25 ≤ x.magnitude

theorem roundHalfUp_of_excessive {x : Binary64} (h : x.Excessive) :
    x.roundHalfUp 3 = .error .coefficientTooLong := by
  cases x with
  | nan => exact absurd h id
  | infinity negative => rfl
  | finite x =>
      have hunits := not_lt.mpr ((coefficientBound_le_unitsHalfUp_iff x).mpr h)
      rw [roundHalfUp_finite x (by decide), if_neg hunits]

theorem roundHalfUp_of_not_excessive {x : Finite} (h : x.magnitude < 10 ^ 25) :
    (Binary64.finite x).roundHalfUp 3 =
      .ok (ofDecimal ⟨x.negative, (shortestDecimal x).unitsHalfUp 3, -3⟩) := by
  have hunits := not_le.mp (mt (coefficientBound_le_unitsHalfUp_iff x).mp (not_le.mpr h))
  have hnegative := (shortestDecimal_reads_back x).1
  rw [roundHalfUp_finite x (by decide), if_pos hunits, Decimal.halfUp, hnegative]

theorem isNonpositive_ofDecimal {d : Decimal} (h : d.negative = true ∨ d.coefficient = 0) :
    (ofDecimal d).isNonpositive = true := by
  rw [isNonpositive, isNegative_ofDecimal, Bool.or_eq_true]
  rcases h with hnegative | hzero
  · exact .inl hnegative
  · rw [ofDecimal_of_coefficient_eq_zero hzero]
    exact .inr rfl

/-- A ratio is at least the number nearest to 0.001. -/
theorem within_ofDecimal_thousandths {n : Nat} (hpos : 1 ≤ n) (hlt : n < Decimal.coefficientBound) :
    Within (nearest (1 / 1000)) (nearest (10 ^ 25)) (ofDecimal ⟨false, n, -3⟩) := by
  have hrat : Decimal.toRat ⟨false, n, -3⟩ = n / 1000 := by
    simp [Decimal.toRat, Decimal.magnitude, div_eq_mul_inv]
    norm_num
  have hlow : (1 : Rat) ≤ n := by exact_mod_cast hpos
  have hhigh : (n : Rat) ≤ 10 ^ 28 := by exact_mod_cast hlt.le
  rw [ofDecimal, hrat]
  refine within_ofRat _ (by norm_num) ?_ ?_ (by decide +kernel)
  · gcongr
  · linarith

/-- There is a quotient by every number that is not zero. -/
theorem exists_div? {y : Binary64} (h : y.isNonpositive = false) (x : Binary64) :
    ∃ q, x.div? y = some q := by
  have hzero : y.isZero = false := by
    rw [isNonpositive, Bool.or_eq_false_iff] at h
    exact h.2
  simp [div?, hzero]

end Binary64

namespace LengthGuide

open Binary64

/-! ## Ratios -/

section Ratio

variable {width height : Binary64}

theorem aspectRatio_eq_bind (h : height.isNonpositive = false) {q : Binary64}
    (hq : width.div? height = some q) :
    ({} : LengthGuide).aspectRatio width height =
      ((q.roundHalfUp 3).mapError .fault).bind fun ratio =>
        if ratio.isNonpositive then .error (.mismatch (.widthNotPositive width height ratio))
        else .ok ratio := by
  have hdiv : width.div height = .ok q := by rw [Binary64.div, hq]
  rw [aspectRatio_of_upright h, hdiv]
  rfl

theorem aspectRatio_of_nan (h : height.isNonpositive = false)
    (hq : width.div? height = some .nan) :
    ({} : LengthGuide).aspectRatio width height = .ok .nan := by
  rw [aspectRatio_eq_bind h hq]
  rfl

theorem aspectRatio_of_excessive (h : height.isNonpositive = false) {q : Binary64}
    (hq : width.div? height = some q) (hexcessive : q.Excessive) :
    ({} : LengthGuide).aspectRatio width height = .error (.fault .coefficientTooLong) := by
  rw [aspectRatio_eq_bind h hq, roundHalfUp_of_excessive hexcessive]
  rfl

theorem aspectRatio_of_narrow (h : height.isNonpositive = false) {x : Finite}
    (hq : width.div? height = some (.finite x)) (hlt : x.magnitude < 10 ^ 25)
    (hnarrow : x.toRat < 1 / 2000) :
    ∃ ratio, ({} : LengthGuide).aspectRatio width height =
      .error (.mismatch (.widthNotPositive width height ratio)) := by
  have hzero : x.negative = true ∨ (shortestDecimal x).unitsHalfUp 3 = 0 := by
    cases hnegative : x.negative with
    | true => exact .inl rfl
    | false =>
        rw [Finite.toRat_of_negative_eq_false hnegative] at hnarrow
        have hunits := mt (one_le_unitsHalfUp_iff x).mp (not_le.mpr hnarrow)
        exact .inr (by omega)
  refine ⟨ofDecimal ⟨x.negative, (shortestDecimal x).unitsHalfUp 3, -3⟩, ?_⟩
  rw [aspectRatio_eq_bind h hq, roundHalfUp_of_not_excessive hlt]
  exact if_pos (isNonpositive_ofDecimal hzero)

theorem aspectRatio_of_fair (h : height.isNonpositive = false) {x : Finite}
    (hq : width.div? height = some (.finite x)) (hlow : 1 / 2000 ≤ x.toRat)
    (hhigh : x.toRat < 10 ^ 25) :
    ∃ ratio, ({} : LengthGuide).aspectRatio width height = .ok ratio ∧
      Within (nearest (1 / 1000)) (nearest (10 ^ 25)) ratio := by
  have hpos : 0 < x.toRat := lt_of_lt_of_le (by norm_num) hlow
  have hnegative := (x.toRat_pos_iff.mp hpos).1
  rw [Finite.toRat_of_negative_eq_false hnegative] at hlow hhigh
  have hunits := (one_le_unitsHalfUp_iff x).mpr hlow
  have hbound := not_le.mp (mt (coefficientBound_le_unitsHalfUp_iff x).mp (not_le.mpr hhigh))
  have hratio := within_ofDecimal_thousandths hunits hbound
  refine ⟨_, ?_, hratio⟩
  rw [aspectRatio_eq_bind h hq, roundHalfUp_of_not_excessive hhigh, hnegative]
  exact if_neg (by rw [hratio.isNonpositive (by decide +kernel)]; exact Bool.false_ne_true)

end Ratio

/-! ## Prices -/

theorem price_nan {mode : ColumnMode} (hmode : mode = .single ∨ mode = .double) :
    ({} : LengthGuide).price .nan mode = .ok .nan := by
  have hdiv : ∀ x : Binary64, x.div .nan = .ok .nan := by
    intro x
    cases x <;> rfl
  have hmul : ∀ x : Binary64, x.mul .nan = .nan := by
    intro x
    cases x <;> rfl
  rcases hmode with rfl | rfl
  · rw [price, hdiv]
    rfl
  · rw [price, hmul, hdiv]
    rfl

theorem wordEquivalent_nan {mode : ColumnMode} (hmode : mode = .single ∨ mode = .double) :
    ({} : LengthGuide).wordEquivalent .nan mode = .error (.fault .ceilingOfNan) := by
  rw [wordEquivalent_of_price rfl (price_nan hmode)]
  rfl

theorem within_ofNat {n : Nat} (h : n ≠ 0) (hexact : nearest n = n)
    (hlt : (n : Rat) < 2 ^ (1024 : Int)) : Within n n (ofNat n) := by
  have hpos : (0 : Rat) < n := by positivity
  have hwithin := within_ofRat false hpos le_rfl le_rfl (hexact.symm ▸ hlt)
  rwa [hexact] at hwithin

/-- The price of a ratio lies between any two integers that its share lies between. -/
theorem exists_wordEquivalent_of_price {ratio share : Binary64} {mode : ColumnMode}
    {low high : Int} (h : ratio.isNonpositive = false)
    (hprice : ({} : LengthGuide).price ratio mode = .ok share) (hwithin : Within low high share) :
    ∃ n, ({} : LengthGuide).wordEquivalent ratio mode = .ok n ∧ low ≤ n ∧ n ≤ high := by
  obtain ⟨n, hn, hlow, hhigh⟩ := hwithin.ceil le_rfl le_rfl
  refine ⟨n, ?_, hlow, hhigh⟩
  rw [wordEquivalent_of_price h hprice, hn]
  rfl

section Price

variable {ratio : Binary64} (h : Within (nearest (1 / 1000)) (nearest (10 ^ 25)) ratio)
include h

theorem price_single : ∃ share, ({} : LengthGuide).price ratio .single = .ok share ∧
    Within (20 : Int) (150020 : Int) share := by
  have hwords : Within 150 150 (ofNat 150) :=
    within_ofNat (by decide) (by decide +kernel) (by decide +kernel)
  have hoffset : Within 20 20 (ofNat 20) :=
    within_ofNat (by decide) (by decide +kernel) (by decide +kernel)
  obtain ⟨q, hq, hwithin⟩ := hwords.div h (by norm_num) (by decide +kernel) (by decide +kernel)
  have hsum := hwithin.add hoffset (by decide +kernel) (by decide +kernel)
  refine ⟨_, ?_, hsum.mono (by decide +kernel) (by decide +kernel)⟩
  rw [price, hq]
  rfl

theorem price_double : ∃ share, ({} : LengthGuide).price ratio .double = .ok share ∧
    Within (40 : Int) (600040 : Int) share := by
  have hwords : Within 300 300 (ofNat 300) :=
    within_ofNat (by decide) (by decide +kernel) (by decide +kernel)
  have hoffset : Within 40 40 (ofNat 40) :=
    within_ofNat (by decide) (by decide +kernel) (by decide +kernel)
  have hscale : Within (nearest (1 / 2)) (nearest (1 / 2)) (ofRat false (1 / 2)) :=
    within_ofRat false (by norm_num) le_rfl le_rfl (by decide +kernel)
  have hscaled := hscale.mul h (by decide +kernel) (by decide +kernel) (by decide +kernel)
  obtain ⟨q, hq, hwithin⟩ := hwords.div hscaled (by norm_num) (by decide +kernel)
    (by decide +kernel)
  have hsum := hwithin.add hoffset (by decide +kernel) (by decide +kernel)
  refine ⟨_, ?_, hsum.mono (by decide +kernel) (by decide +kernel)⟩
  rw [price, hq]
  rfl

theorem exists_wordEquivalent {mode : ColumnMode} (hmode : mode = .single ∨ mode = .double) :
    ∃ n, ({} : LengthGuide).wordEquivalent ratio mode = .ok n ∧ 20 ≤ n := by
  have hratio := h.isNonpositive (by decide +kernel)
  rcases hmode with rfl | rfl
  · obtain ⟨share, hshare, hwithin⟩ := price_single h
    obtain ⟨n, hn, hlow, -⟩ := exists_wordEquivalent_of_price hratio hshare hwithin
    exact ⟨n, hn, hlow⟩
  · obtain ⟨share, hshare, hwithin⟩ := price_double h
    obtain ⟨n, hn, hlow, -⟩ := exists_wordEquivalent_of_price hratio hshare hwithin
    exact ⟨n, hn, by omega⟩

end Price

end LengthGuide

/-! ## Estimates -/

/-- What the default guide makes of an image, by its height and the quotient of its sizes. -/
inductive Prices (image : Image) (mode : ColumnMode) : Except Failure Estimate → Prop where
  | flat : image.height.isNonpositive = true →
      Prices image mode (.error (.mismatch (.heightNotPositive image.height)))
  | undefined : image.height.isNonpositive = false → image.width.div? image.height = some .nan →
      Prices image mode (.error (.fault .ceilingOfNan))
  | excessive {q : Binary64} : image.height.isNonpositive = false →
      image.width.div? image.height = some q → q.Excessive →
      Prices image mode (.error (.fault .coefficientTooLong))
  | narrow {x : Binary64.Finite} {ratio : Binary64} : image.height.isNonpositive = false →
      image.width.div? image.height = some (.finite x) → x.magnitude < 10 ^ 25 →
      x.toRat < 1 / 2000 →
      Prices image mode (.error (.mismatch (.widthNotPositive image.width image.height ratio)))
  | fair {x : Binary64.Finite} {ratio : Binary64} {words : Int} :
      image.height.isNonpositive = false → image.width.div? image.height = some (.finite x) →
      1 / 2000 ≤ x.toRat → x.toRat < 10 ^ 25 → 20 ≤ words →
      Prices image mode (.ok ⟨image.fileName, ratio, words, mode⟩)

theorem estimate_prices (image : Image) {mode : ColumnMode}
    (hmode : mode = .single ∨ mode = .double) :
    Prices image mode (({} : LengthGuide).estimate image mode) := by
  cases hflat : image.height.isNonpositive with
  | true =>
      rw [LengthGuide.estimate_of_aspectRatio_error (LengthGuide.aspectRatio_of_flat hflat)]
      exact .flat hflat
  | false =>
      obtain ⟨q, hq⟩ := Binary64.exists_div? hflat image.width
      by_cases hexcessive : q.Excessive
      · rw [LengthGuide.estimate_of_aspectRatio_error
          (LengthGuide.aspectRatio_of_excessive hflat hq hexcessive)]
        exact .excessive hflat hq hexcessive
      · cases q with
        | nan =>
            rw [LengthGuide.estimate_of_aspectRatio (LengthGuide.aspectRatio_of_nan hflat hq),
              LengthGuide.wordEquivalent_nan hmode]
            exact .undefined hflat hq
        | infinity negative => exact absurd trivial hexcessive
        | finite x =>
            have hlt := not_le.mp hexcessive
            by_cases hnarrow : x.toRat < 1 / 2000
            · obtain ⟨ratio, hratio⟩ := LengthGuide.aspectRatio_of_narrow hflat hq hlt hnarrow
              rw [LengthGuide.estimate_of_aspectRatio_error hratio]
              exact .narrow hflat hq hlt hnarrow
            · have hlow := not_lt.mp hnarrow
              have hhigh : x.toRat < 10 ^ 25 := x.toRat_le_magnitude.trans_lt hlt
              obtain ⟨ratio, hratio, hwithin⟩ :=
                LengthGuide.aspectRatio_of_fair hflat hq hlow hhigh
              obtain ⟨words, hwords, h20⟩ := LengthGuide.exists_wordEquivalent hwithin hmode
              rw [LengthGuide.estimate_of_aspectRatio hratio, hwords]
              exact .fair hflat hq hlow hhigh h20

/-- The least power of ten that makes a ratio of 29 digits. -/
example : ({} : LengthGuide).estimate ⟨"wide", .ofRat false (10 ^ 25), .ofNat 1⟩ .single =
    .error (.fault .coefficientTooLong) := by
  decide +kernel

/-- The quotient of the sizes makes a ratio that can be priced. -/
def Image.Fair (image : Image) : Prop :=
  image.height.isNonpositive = false ∧ ∃ x : Binary64.Finite,
    image.width.div? image.height = some (.finite x) ∧ 1 / 2000 ≤ x.toRat ∧ x.toRat < 10 ^ 25

/-- The faults that pricing an image ends in. -/
inductive Image.Faulty (image : Image) : Fault → Prop where
  | excessive {q : Binary64} : image.height.isNonpositive = false →
      image.width.div? image.height = some q → q.Excessive → Faulty image .coefficientTooLong
  | undefined : image.height.isNonpositive = false →
      image.width.div? image.height = some .nan → Faulty image .ceilingOfNan

theorem not_excessive_of_fair {x : Binary64.Finite} (hlow : 1 / 2000 ≤ x.toRat)
    (hhigh : x.toRat < 10 ^ 25) : ¬ (Binary64.finite x).Excessive := by
  have hpos : 0 < x.toRat := lt_of_lt_of_le (by norm_num) hlow
  intro hexcessive
  rw [Binary64.Finite.toRat_eq_magnitude hpos] at hhigh
  exact absurd hhigh (not_lt.mpr hexcessive)

section Estimate

variable {image : Image} {mode : ColumnMode} {outcome : Except Failure Estimate}
  (h : Prices image mode outcome)
include h

theorem Prices.exists_ok_iff : (∃ estimate, outcome = .ok estimate) ↔ image.Fair := by
  constructor
  · rintro ⟨estimate, rfl⟩
    cases h with
    | fair hflat hq hlow hhigh _ => exact ⟨hflat, _, hq, hlow, hhigh⟩
  · rintro ⟨hflat, x, hq, hlow, hhigh⟩
    cases h with
    | flat hflat' => cases hflat.symm.trans hflat'
    | undefined _ hq' => cases hq.symm.trans hq'
    | excessive _ hq' hexcessive =>
        cases hq.symm.trans hq'
        exact absurd hexcessive (not_excessive_of_fair hlow hhigh)
    | narrow _ hq' _ hnarrow =>
        cases hq.symm.trans hq'
        exact absurd hnarrow (not_lt.mpr hlow)
    | fair => exact ⟨_, rfl⟩

theorem Prices.eq_fault_iff (fault : Fault) :
    outcome = .error (.fault fault) ↔ image.Faulty fault := by
  constructor
  · rintro rfl
    cases h with
    | undefined hflat hq => exact .undefined hflat hq
    | excessive hflat hq hexcessive => exact .excessive hflat hq hexcessive
  · intro hfaulty
    cases h with
    | flat hflat' =>
        cases hfaulty with
        | excessive hflat _ _ => cases hflat.symm.trans hflat'
        | undefined hflat _ => cases hflat.symm.trans hflat'
    | undefined _ hq' =>
        cases hfaulty with
        | undefined => rfl
        | excessive _ hq hexcessive =>
            cases hq.symm.trans hq'
            exact absurd hexcessive id
    | excessive _ hq' hexcessive =>
        cases hfaulty with
        | excessive => rfl
        | undefined _ hq =>
            cases hq.symm.trans hq'
            exact absurd hexcessive id
    | narrow _ hq' hlt _ =>
        cases hfaulty with
        | excessive _ hq hexcessive =>
            cases hq.symm.trans hq'
            exact absurd hlt (not_lt.mpr hexcessive)
        | undefined _ hq => cases hq.symm.trans hq'
    | fair _ hq' hlow hhigh _ =>
        cases hfaulty with
        | excessive _ hq hexcessive =>
            cases hq.symm.trans hq'
            exact absurd hexcessive (not_excessive_of_fair hlow hhigh)
        | undefined _ hq => cases hq.symm.trans hq'

theorem Prices.words_nonneg {estimate : Estimate} (hok : outcome = .ok estimate) :
    0 ≤ estimate.words := by
  subst hok
  cases h with
  | fair _ _ _ _ hwords => exact le_trans (by norm_num) hwords

end Estimate

end Galley
