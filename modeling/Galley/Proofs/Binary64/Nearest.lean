import Mathlib
import Galley.Proofs.Binary64.Rounding

/-!
# Rounding goes to the nearest number

No finite number is nearer to a rational number than the one that it is rounded to, and where
another one is as near, the significand is even. From half a unit beyond the greatest finite number
on, what is rounded to is infinite.
-/

namespace Galley.Binary64

/-! ## Natural numbers -/

theorem natFloor_bounds {x : Rat} (hx : 0 ≤ x) : (⌊x⌋₊ : Rat) ≤ x ∧ x < ⌊x⌋₊ + 1 :=
  ⟨Nat.floor_le hx, Nat.lt_floor_add_one x⟩

/-- A natural number is not above the floor, or not below the one behind it. -/
theorem le_or_succ_le (b k : Nat) : (k : Rat) ≤ b ∨ (b : Rat) + 1 ≤ k := by
  rcases Nat.lt_or_ge b k with hlt | hle
  · right
    exact_mod_cast hlt
  · left
    exact_mod_cast hle

theorem roundHalfEven_nearest {x : Rat} (hx : 0 ≤ x) (k : Nat) :
    |(roundHalfEven x : Rat) - x| ≤ |(k : Rat) - x| := by
  obtain ⟨hle, hlt⟩ := natFloor_bounds hx
  have hk := le_or_succ_le ⌊x⌋₊ k
  rw [roundHalfEven, toNat_floor]
  split_ifs with hlow hhigh
  · grind
  · push_cast
    grind
  · rcases Nat.mod_two_eq_zero_or_one ⌊x⌋₊ with heven | hodd
    · rw [heven]
      push_cast
      grind
    · rw [hodd]
      push_cast
      grind

theorem even_roundHalfEven_of_tie {x : Rat} (hx : 0 ≤ x) {k : Nat}
    (htie : |(k : Rat) - x| = |(roundHalfEven x : Rat) - x|) (hne : k ≠ roundHalfEven x) :
    Even (roundHalfEven x) := by
  obtain ⟨hle, hlt⟩ := natFloor_bounds hx
  rw [roundHalfEven, toNat_floor] at htie hne ⊢
  split_ifs at htie hne ⊢ with hlow hhigh
  · rcases Nat.lt_or_gt_of_ne hne with hbelow | habove
    · have hk : (k : Rat) + 1 ≤ ⌊x⌋₊ := by exact_mod_cast hbelow
      grind
    · have hk : (⌊x⌋₊ : Rat) + 1 ≤ k := by exact_mod_cast habove
      grind
  · push_cast at htie
    rcases Nat.lt_or_gt_of_ne hne with hbelow | habove
    · have hk : (k : Rat) ≤ ⌊x⌋₊ := by exact_mod_cast Nat.le_of_lt_succ hbelow
      grind
    · have hk : (⌊x⌋₊ : Rat) + 1 + 1 ≤ k := by exact_mod_cast habove
      grind
  · rw [Nat.even_iff]
    omega

/-! ## Magnitudes -/

/-- The distance from a multiple of the unit, measured in units. -/
theorem abs_mul_zpow_sub (k x : Rat) (e : Int) :
    |k * 2 ^ e - x| = |k - x / 2 ^ e| * 2 ^ e := by
  have hpos : (0 : Rat) < 2 ^ e := by positivity
  rw [← abs_of_pos hpos, ← abs_mul, abs_of_pos hpos, sub_mul, div_mul_cancel₀ _ hpos.ne']

/-- A magnitude of a number is a multiple of the unit at `x`, or it is farther from `x` than the
least multiple with a significand of full length. -/
theorem grid_or_far {x : Rat} (hx : 0 < x) {n : Nat} {e : Int} (hn : n < 9007199254740992)
    (he : -1074 ≤ e) :
    (∃ k : Nat, (n : Rat) * 2 ^ e = k * 2 ^ unitExponent x) ∨
      |(4503599627370496 : Nat) * 2 ^ unitExponent x - x| < |(n : Rat) * 2 ^ e - x| := by
  rcases le_or_gt (unitExponent x) e with hle | hlt
  · left
    obtain ⟨k, hk⟩ := Int.eq_ofNat_of_zero_le (sub_nonneg.mpr hle)
    refine ⟨n * 2 ^ k, ?_⟩
    have hsum : e = k + unitExponent x := by omega
    rw [hsum, zpow_add₀ two_ne_zero, zpow_natCast]
    push_cast
    ring
  · right
    have hshort : (n : Rat) * 2 ^ e < 2 ^ (52 + unitExponent x) :=
      (mul_zpow_lt hn e).trans_le (zpow_le_zpow_right₀ one_le_two (by omega))
    have hlong := unit_mul_le hx (by omega)
    have hpow : (2 : Rat) ^ (52 + unitExponent x) =
        (4503599627370496 : Nat) * 2 ^ unitExponent x := by
      rw [zpow_add₀ two_ne_zero]
      norm_num
    rw [hpow] at hshort
    norm_num at hlong hshort ⊢
    grind

theorem abs_nearest_sub_le_of_grid {x : Rat} (hx : 0 < x) (k : Nat) :
    |nearest x - x| ≤ |(k : Rat) * 2 ^ unitExponent x - x| := by
  rw [nearest, abs_mul_zpow_sub, abs_mul_zpow_sub]
  exact mul_le_mul_of_nonneg_right (roundHalfEven_nearest (by positivity) k) (by positivity)

section Magnitude

variable {x : Rat} (hx : 0 < x) {n : Nat} {e : Int} (hn : n < 9007199254740992) (he : -1074 ≤ e)
include hx hn he

theorem abs_nearest_sub_le : |nearest x - x| ≤ |(n : Rat) * 2 ^ e - x| := by
  rcases grid_or_far hx hn he with ⟨k, hk⟩ | hfar
  · rw [hk]
    exact abs_nearest_sub_le_of_grid hx k
  · exact (abs_nearest_sub_le_of_grid hx _).trans hfar.le

theorem even_significandNear_of_tie (htie : |(n : Rat) * 2 ^ e - x| = |nearest x - x|)
    (hne : (n : Rat) * 2 ^ e ≠ nearest x) : Even (significandNear x) := by
  have hpos : (0 : Rat) < 2 ^ unitExponent x := by positivity
  rcases grid_or_far hx hn he with ⟨k, hk⟩ | hfar
  · rw [hk, nearest, abs_mul_zpow_sub, abs_mul_zpow_sub] at htie
    refine even_roundHalfEven_of_tie (by positivity) (mul_right_cancel₀ hpos.ne' htie) ?_
    rintro rfl
    exact hne hk
  · rw [htie] at hfar
    exact absurd (abs_nearest_sub_le_of_grid hx _) (not_le.mpr hfar)

end Magnitude

/-! ## Overflow -/

/-- Half a unit beyond the greatest finite number. -/
def overflowBound : Rat :=
  2 ^ (1024 : Int) - 2 ^ (970 : Int)

theorem nearest_lt_iff {x : Rat} (hx : 0 < x) :
    nearest x < 2 ^ (1024 : Int) ↔ x < overflowBound := by
  have htop : nearest overflowBound = 2 ^ (1024 : Int) := by decide +kernel
  have hpos : 0 < overflowBound := by decide +kernel
  constructor
  · intro h
    by_contra hle
    have hmono := nearest_mono hpos (not_lt.mp hle)
    rw [htop] at hmono
    exact absurd h (not_lt.mpr hmono)
  · intro h
    by_contra hle
    -- The greatest finite number is nearer than `2 ^ 1024`.
    have hgreatest := abs_nearest_sub_le hx (n := 9007199254740991) (e := 970 + 1) (by norm_num)
      (by norm_num)
    have hunit : (0 : Rat) < 2 ^ (970 : Int) := by positivity
    have htwo : (2 : Rat) ^ (1024 : Int) = 18014398509481984 * 2 ^ (970 : Int) := by
      rw [show (1024 : Int) = 54 + 970 by norm_num, zpow_add₀ two_ne_zero]
      norm_num
    rw [zpow_add₀ two_ne_zero, zpow_one, Nat.cast_ofNat] at hgreatest
    rw [overflowBound] at h
    rw [htwo] at h hle
    generalize (2 : Rat) ^ (970 : Int) = unit at *
    grind

/-! ## Numbers -/

/-- What a rational number is rounded to: no finite number is nearer, and at a tie the significand
is even. -/
inductive NearestTo (x : Rat) : Binary64 → Prop where
  | finite (f : Finite) : |x| < overflowBound →
      (∀ g : Finite, |f.toRat - x| ≤ |g.toRat - x|) →
      (∀ g : Finite, |g.toRat - x| = |f.toRat - x| → g.toRat ≠ f.toRat → Even f.significand) →
      NearestTo x (.finite f)
  | infinity (negative : Bool) : overflowBound ≤ (if negative then -x else x) →
      NearestTo x (.infinity negative)

theorem Finite.abs_toRat (f : Finite) : |f.toRat| = f.magnitude := by
  rw [toRat]
  split
  · rw [abs_neg, abs_of_nonneg f.magnitude_nonneg]
  · exact abs_of_nonneg f.magnitude_nonneg

theorem even_significand_of_pack {negative : Bool} {n : Nat} {e : Int} {f : Finite}
    (h : pack negative n e = .finite f) (heven : Even n) : Even f.significand := by
  rw [pack] at h
  split at h
  · rw [← Binary64.finite.inj h]
    exact heven
  · cases h

theorem even_significand_of_ofMagnitude {negative : Bool} {x : Rat} {f : Finite}
    (h : ofMagnitude negative x = .finite f) (heven : Even (significandNear x)) :
    Even f.significand := by
  change (if significandNear x = 9007199254740992 then
      pack negative 4503599627370496 (unitExponent x + 1)
    else pack negative (significandNear x) (unitExponent x)) = .finite f at h
  split at h
  · exact even_significand_of_pack h (by decide)
  · exact even_significand_of_pack h heven

/-- Numbers of one sign are as far apart as their magnitudes. -/
theorem abs_signed_sub (negative : Bool) (a b : Rat) :
    |(if negative then -a else a) - (if negative then -b else b)| = |a - b| := by
  cases negative with
  | true => rw [if_pos rfl, if_pos rfl, neg_sub_neg, abs_sub_comm]
  | false => rfl

/-- Numbers of opposite values are as far from a third one only if they are zero. -/
theorem eq_zero_of_abs_neg_sub {a x : Rat} (hx : x ≠ 0) (h : |-a - x| = |a - x|) : a = 0 := by
  rcases abs_eq_abs.mp h with h | h
  · linarith
  · exact absurd (by linarith) hx

theorem nearestTo_ofMagnitude (negative : Bool) {magnitude : Rat} (h : 0 < magnitude) :
    NearestTo (if negative then -magnitude else magnitude) (ofMagnitude negative magnitude) := by
  have habs : |if negative then -magnitude else magnitude| = magnitude := by
    cases negative <;> simp [abs_of_pos h]
  have hne : (if negative then -magnitude else magnitude) ≠ 0 := by
    rw [← abs_pos, habs]
    exact h
  have hrepresents := represents_ofMagnitude negative h
  generalize hy : ofMagnitude negative magnitude = y at hrepresents ⊢
  cases hrepresents with
  | finite f hnegative hmagnitude hlt =>
      have hdistance : |f.toRat - if negative then -magnitude else magnitude| =
          |nearest magnitude - magnitude| := by
        rw [Finite.toRat, hnegative, hmagnitude, abs_signed_sub]
      have hreverse : ∀ g : Finite, |g.magnitude - magnitude| ≤
          |g.toRat - if negative then -magnitude else magnitude| := by
        intro g
        have := abs_abs_sub_abs_le g.toRat (if negative then -magnitude else magnitude)
        rwa [g.abs_toRat, habs] at this
      have hgrid : ∀ g : Finite, |nearest magnitude - magnitude| ≤ |g.magnitude - magnitude| :=
        fun g => abs_nearest_sub_le h g.canonical.1 g.canonical.2.1
      refine .finite f (by rwa [habs, ← nearest_lt_iff h]) ?_ ?_
      · intro g
        rw [hdistance]
        exact (hgrid g).trans (hreverse g)
      · intro g htie hother
        have htie' : |g.magnitude - magnitude| = |nearest magnitude - magnitude| :=
          le_antisymm ((hreverse g).trans_eq (htie.trans hdistance)) (hgrid g)
        refine even_significand_of_ofMagnitude hy
          (even_significandNear_of_tie h g.canonical.1 g.canonical.2.1 htie' ?_)
        intro heq
        -- The other number would be the opposite one, and that is as near for zero only.
        have habsEq : |g.toRat| = |f.toRat| := by
          rw [g.abs_toRat, f.abs_toRat, hmagnitude]
          exact heq
        rcases abs_eq_abs.mp habsEq with hsame | hopposite
        · exact hother hsame
        · rw [hopposite] at htie hother
          have hzero := eq_zero_of_abs_neg_sub hne htie
          exact hother (by rw [hzero, neg_zero])
  | infinity hle =>
      refine .infinity negative ?_
      have hbeyond := not_lt.mp (mt (nearest_lt_iff h).mpr (not_lt.mpr hle))
      cases negative <;> simpa using hbeyond

/-- Rounding goes to the nearest number. -/
theorem nearestTo_ofRat (zeroSign : Bool) (x : Rat) : NearestTo x (ofRat zeroSign x) := by
  rcases lt_trichotomy x 0 with hlt | rfl | hgt
  · have hnearest := nearestTo_ofMagnitude true (neg_pos.mpr hlt)
    rw [if_pos rfl, neg_neg] at hnearest
    rwa [ofRat, if_neg hlt.ne, if_pos hlt]
  · have hrat : Finite.toRat ⟨zeroSign, 0, -1074, canonical_zero⟩ = 0 := by
      simp [Finite.toRat, Finite.magnitude]
    rw [ofRat, if_pos rfl, zero_eq]
    refine .finite _ (by decide +kernel) ?_ fun _ _ _ => Even.zero
    intro g
    rw [hrat, sub_zero, abs_zero]
    exact abs_nonneg _
  · have hnearest := nearestTo_ofMagnitude false hgt
    rw [if_neg Bool.false_ne_true] at hnearest
    rwa [ofRat, if_neg hgt.ne', if_neg hgt.not_gt]

/-! ## Signs -/

theorem isNegative_pack (negative : Bool) (n : Nat) (e : Int) :
    (pack negative n e).isNegative = negative := by
  rw [pack]
  split <;> rfl

theorem isNegative_ofMagnitude (negative : Bool) (x : Rat) :
    (ofMagnitude negative x).isNegative = negative := by
  rw [ofMagnitude]
  split <;> exact isNegative_pack _ _ _

/-- The sign is kept, by what is rounded to zero as well. -/
theorem isNegative_ofDecimal (d : Decimal) : (ofDecimal d).isNegative = d.negative := by
  by_cases h : d.coefficient = 0
  · rw [ofDecimal_of_coefficient_eq_zero h]
    rfl
  · rw [ofDecimal, Decimal.toRat, ofRat_signed _ _ (represents_ofDecimal h).1]
    exact isNegative_ofMagnitude _ _

end Galley.Binary64
