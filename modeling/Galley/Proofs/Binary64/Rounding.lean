import Mathlib
import Galley.Binary64.Basic

/-! # Rounding to the nearest number -/

namespace Galley.Binary64

/-! ## Orders of magnitude -/

theorem two_zpow_log2_le {n : Nat} (h : n ≠ 0) : (2 : Rat) ^ (n.log2 : Int) ≤ n := by
  exact_mod_cast Nat.log2_self_le h

theorem lt_two_zpow_log2_succ (n : Nat) : (n : Rat) < 2 ^ (n.log2 + 1 : Int) := by
  exact_mod_cast Nat.lt_log2_self

theorem natAbs_num_eq {x : Rat} (h : 0 < x) : (x.num.natAbs : Rat) = x * x.den := by
  have habs : ((x.num.natAbs : Int) : Rat) = x.num := by
    rw [Int.natAbs_of_nonneg (Rat.num_pos.mpr h).le]
  rw [Rat.mul_den_eq_num, ← habs, Int.cast_natCast]

/-- The orders of a numerator and a denominator leave two orders for their quotient. -/
theorem log_bounds {x : Rat} (h : 0 < x) :
    (x.num.natAbs.log2 - x.den.log2 - 1 : Int) ≤ Int.log 2 x ∧
      Int.log 2 x < x.num.natAbs.log2 - x.den.log2 + 1 := by
  have hnum : x.num.natAbs ≠ 0 := by
    have := Rat.num_pos.mpr h
    omega
  have hden : (0 : Rat) < x.den := by exact_mod_cast x.den_pos
  have hlow := two_zpow_log2_le hnum
  have hhigh := lt_two_zpow_log2_succ x.num.natAbs
  rw [natAbs_num_eq h] at hlow hhigh
  constructor
  · rw [← Int.zpow_le_iff_le_log one_lt_two h]
    refine le_of_mul_le_mul_right ?_ hden
    calc (2 : Rat) ^ (x.num.natAbs.log2 - x.den.log2 - 1 : Int) * x.den
        ≤ 2 ^ (x.num.natAbs.log2 - x.den.log2 - 1 : Int) * 2 ^ (x.den.log2 + 1 : Int) := by
          gcongr
          exact (lt_two_zpow_log2_succ x.den).le
      _ = 2 ^ (x.num.natAbs.log2 : Int) := by
          rw [← zpow_add₀ two_ne_zero]
          congr 1
          ring
      _ ≤ x * x.den := hlow
  · rw [← Int.lt_zpow_iff_log_lt one_lt_two h]
    refine lt_of_mul_lt_mul_right ?_ hden.le
    calc x * x.den < 2 ^ (x.num.natAbs.log2 + 1 : Int) := hhigh
      _ = 2 ^ (x.num.natAbs.log2 - x.den.log2 + 1 : Int) * 2 ^ (x.den.log2 : Int) := by
          rw [← zpow_add₀ two_ne_zero]
          congr 1
          ring
      _ ≤ 2 ^ (x.num.natAbs.log2 - x.den.log2 + 1 : Int) * x.den := by
          gcongr
          exact two_zpow_log2_le x.den_ne_zero

theorem floorLog2_eq_log {x : Rat} (h : 0 < x) : floorLog2 x = Int.log 2 x := by
  obtain ⟨hlow, hhigh⟩ := log_bounds h
  rw [floorLog2]
  split
  next hle =>
    have := (Int.zpow_le_iff_le_log one_lt_two h).mp hle
    omega
  next hlt =>
    have := (Int.lt_zpow_iff_log_lt one_lt_two h).mp (not_le.mp hlt)
    omega

theorem unitExponent_eq {x : Rat} (h : 0 < x) :
    unitExponent x = max (Int.log 2 x - 52) (-1074) := by
  rw [unitExponent, floorLog2_eq_log h]

theorem unitExponent_mono {x y : Rat} (hx : 0 < x) (h : x ≤ y) :
    unitExponent x ≤ unitExponent y := by
  rw [unitExponent_eq hx, unitExponent_eq (hx.trans_le h)]
  have := Int.log_mono_right (b := 2) hx h
  omega

theorem lt_unit_mul {x : Rat} (h : 0 < x) : x < 2 ^ 53 * 2 ^ unitExponent x := by
  have hlog : x < (2 : Rat) ^ (Int.log 2 x + 1) := Int.lt_zpow_succ_log_self one_lt_two x
  have hle : Int.log 2 x + 1 ≤ 53 + unitExponent x := by
    rw [unitExponent_eq h]
    omega
  calc x < (2 : Rat) ^ (Int.log 2 x + 1) := hlog
    _ ≤ 2 ^ (53 + unitExponent x) := zpow_le_zpow_right₀ one_le_two hle
    _ = 2 ^ 53 * 2 ^ unitExponent x := by
        rw [zpow_add₀ two_ne_zero]
        norm_num

theorem unit_mul_le {x : Rat} (h : 0 < x) (hunit : unitExponent x ≠ -1074) :
    2 ^ 52 * 2 ^ unitExponent x ≤ x := by
  have hlog : (2 : Rat) ^ Int.log 2 x ≤ x := Int.zpow_log_le_self one_lt_two h
  have heq : 52 + unitExponent x = Int.log 2 x := by
    rw [unitExponent_eq h] at hunit ⊢
    omega
  calc (2 : Rat) ^ 52 * 2 ^ unitExponent x = 2 ^ (52 + unitExponent x) := by
        rw [zpow_add₀ two_ne_zero]
        norm_num
    _ = 2 ^ Int.log 2 x := by rw [heq]
    _ ≤ x := hlog

/-! ## Significands -/

theorem mul_zpow_lt {n : Nat} (h : n < 9007199254740992) (e : Int) :
    (n : Rat) * 2 ^ e < 2 ^ (53 + e) := by
  have hn : (n : Rat) < 2 ^ (53 : Int) := by
    norm_num
    exact_mod_cast h
  rw [zpow_add₀ two_ne_zero]
  gcongr

theorem le_mul_zpow {n : Nat} (h : 4503599627370496 ≤ n) (e : Int) :
    (2 : Rat) ^ (52 + e) ≤ n * 2 ^ e := by
  have hn : (2 : Rat) ^ (52 : Int) ≤ n := by
    norm_num
    exact_mod_cast h
  rw [zpow_add₀ two_ne_zero]
  gcongr

/-! ## Rounding to a natural number -/

theorem toNat_floor (x : Rat) : x.floor.toNat = ⌊x⌋₊ :=
  Int.floor_toNat x

theorem roundHalfEven_natCast (n : Nat) : roundHalfEven n = n := by
  simp [roundHalfEven, toNat_floor]

theorem floor_le_roundHalfEven (x : Rat) : ⌊x⌋₊ ≤ roundHalfEven x := by
  rw [roundHalfEven, toNat_floor]
  split_ifs <;> omega

theorem roundHalfEven_le_floor_succ (x : Rat) : roundHalfEven x ≤ ⌊x⌋₊ + 1 := by
  rw [roundHalfEven, toNat_floor]
  split_ifs <;> omega

theorem roundHalfEven_mono {x y : Rat} (h : x ≤ y) : roundHalfEven x ≤ roundHalfEven y := by
  rcases (Nat.floor_mono h).lt_or_eq with hlt | heq
  · exact (roundHalfEven_le_floor_succ x).trans (hlt.trans_le (floor_le_roundHalfEven y))
  · rw [roundHalfEven, roundHalfEven, toNat_floor, toNat_floor, heq]
    split_ifs <;> first | omega | linarith

theorem roundHalfEven_le {x : Rat} {n : Nat} (h : x ≤ n) : roundHalfEven x ≤ n :=
  roundHalfEven_natCast n ▸ roundHalfEven_mono h

theorem le_roundHalfEven {x : Rat} {n : Nat} (h : (n : Rat) ≤ x) : n ≤ roundHalfEven x :=
  roundHalfEven_natCast n ▸ roundHalfEven_mono h

/-! ## Rounding a magnitude -/

/-- The number of units that the magnitude nearest to `x` has, where exponents may be of any
size. -/
def significandNear (x : Rat) : Nat :=
  roundHalfEven (x / 2 ^ unitExponent x)

/-- The magnitude nearest to `x`, where exponents may be of any size. -/
def nearest (x : Rat) : Rat :=
  significandNear x * 2 ^ unitExponent x

theorem significandNear_le {x : Rat} (h : 0 < x) : significandNear x ≤ 9007199254740992 := by
  apply roundHalfEven_le
  rw [div_le_iff₀ (by positivity)]
  have := (lt_unit_mul h).le
  norm_num at this ⊢
  exact this

theorem le_significandNear {x : Rat} (h : 0 < x) (hunit : unitExponent x ≠ -1074) :
    4503599627370496 ≤ significandNear x := by
  apply le_roundHalfEven
  rw [le_div_iff₀ (by positivity)]
  have := unit_mul_le h hunit
  norm_num at this ⊢
  exact this

theorem neg_le_unitExponent (x : Rat) : -1074 ≤ unitExponent x :=
  le_max_right _ _

theorem nearest_mono {x y : Rat} (hx : 0 < x) (h : x ≤ y) : nearest x ≤ nearest y := by
  rcases (unitExponent_mono hx h).lt_or_eq with hlt | heq
  · have hunit : unitExponent y ≠ -1074 := by
      have := neg_le_unitExponent x
      omega
    have hshort : (significandNear x : Rat) ≤ 2 ^ (53 : Int) := by
      norm_num
      exact_mod_cast significandNear_le hx
    calc nearest x ≤ 2 ^ (53 : Int) * 2 ^ unitExponent x := by
          rw [nearest]
          gcongr
      _ = 2 ^ (53 + unitExponent x) := (zpow_add₀ two_ne_zero _ _).symm
      _ ≤ 2 ^ (52 + unitExponent y) := zpow_le_zpow_right₀ one_le_two (by omega)
      _ ≤ nearest y := le_mul_zpow (le_significandNear (hx.trans_le h) hunit) _
  · have hle : significandNear x ≤ significandNear y := by
      rw [significandNear, significandNear, heq]
      apply roundHalfEven_mono
      gcongr
    rw [nearest, nearest, heq]
    gcongr

/-- Magnitudes of numbers, and those of numbers with greater exponents, are not rounded. -/
theorem nearest_mul_zpow {n : Nat} {e : Int} (hn : n ≠ 0) (hshort : n < 9007199254740992)
    (he : -1074 ≤ e) : nearest (n * 2 ^ e) = n * 2 ^ e := by
  have hpos : (0 : Rat) < n * 2 ^ e := by positivity
  have hlog : Int.log 2 ((n : Rat) * 2 ^ e) < 53 + e := by
    rw [← Int.lt_zpow_iff_log_lt one_lt_two hpos]
    exact mul_zpow_lt hshort e
  have hunit : unitExponent ((n : Rat) * 2 ^ e) ≤ e := by
    rw [unitExponent_eq hpos]
    omega
  obtain ⟨k, hk⟩ := Int.eq_ofNat_of_zero_le (sub_nonneg.mpr hunit)
  have hquotient : (n : Rat) * 2 ^ e / 2 ^ unitExponent ((n : Rat) * 2 ^ e) =
      ((n * 2 ^ k : Nat) : Rat) := by
    rw [mul_div_assoc, ← zpow_sub₀ two_ne_zero, hk, zpow_natCast]
    push_cast
    rfl
  rw [nearest, significandNear, hquotient, roundHalfEven_natCast, ← hquotient]
  exact div_mul_cancel₀ _ (by positivity)

/-! ## Numbers from magnitudes -/

/-- A number of a sign and a magnitude, which is infinite when the magnitude is too large. -/
inductive Represents (negative : Bool) (magnitude : Rat) : Binary64 → Prop where
  | finite (f : Finite) : f.negative = negative → f.magnitude = magnitude →
      magnitude < 2 ^ (1024 : Int) → Represents negative magnitude (.finite f)
  | infinity : 2 ^ (1024 : Int) ≤ magnitude → Represents negative magnitude (.infinity negative)

/-- Exponents run out exactly where magnitudes reach `2 ^ 1024`. -/
theorem mul_zpow_lt_iff {n : Nat} {e : Int} (hlong : 4503599627370496 ≤ n)
    (hshort : n < 9007199254740992) : (n : Rat) * 2 ^ e < 2 ^ (1024 : Int) ↔ e ≤ 971 := by
  constructor
  · intro h
    have hpow := (zpow_lt_zpow_iff_right₀ one_lt_two).mp ((le_mul_zpow hlong e).trans_lt h)
    omega
  · intro h
    exact (mul_zpow_lt hshort e).trans_le (zpow_le_zpow_right₀ one_le_two (by omega))

theorem pack_of_canonical {negative : Bool} {n : Nat} {e : Int} (h : Canonical n e) :
    pack negative n e = .finite ⟨negative, n, e, h⟩ :=
  dif_pos h

theorem represents_pack_of_canonical (negative : Bool) {n : Nat} {e : Int} (h : Canonical n e) :
    Represents negative (n * 2 ^ e) (pack negative n e) := by
  obtain ⟨hshort, hlow, hhigh, hlong⟩ := id h
  rw [pack_of_canonical h]
  refine .finite _ rfl rfl ?_
  rcases hlong with hlong | heq
  · exact (mul_zpow_lt_iff hlong hshort).mpr hhigh
  · exact (mul_zpow_lt hshort e).trans_le (zpow_le_zpow_right₀ one_le_two (by omega))

theorem represents_pack (negative : Bool) {n : Nat} {e : Int} (hshort : n < 9007199254740992)
    (he : -1074 ≤ e) (hlong : e ≠ -1074 → 4503599627370496 ≤ n) :
    Represents negative (n * 2 ^ e) (pack negative n e) := by
  by_cases hcanonical : Canonical n e
  · exact represents_pack_of_canonical negative hcanonical
  · have hhigh : ¬ e ≤ 971 := by
      intro hle
      refine hcanonical ⟨hshort, he, hle, ?_⟩
      by_cases heq : e = -1074
      · exact .inr heq
      · exact .inl (hlong heq)
    have hn := hlong (by omega)
    rw [pack, dif_neg hcanonical]
    exact .infinity (not_lt.mp (mt (mul_zpow_lt_iff hn hshort).mp hhigh))

/-- The result of rounding a positive magnitude is the nearest one, or infinite. -/
theorem represents_ofMagnitude (negative : Bool) {x : Rat} (h : 0 < x) :
    Represents negative (nearest x) (ofMagnitude negative x) := by
  have hunit := neg_le_unitExponent x
  have hle := significandNear_le h
  change Represents negative (nearest x)
    (if significandNear x = 9007199254740992 then
      pack negative 4503599627370496 (unitExponent x + 1)
    else pack negative (significandNear x) (unitExponent x))
  split
  next heq =>
    -- The significand got one bit longer, and its last bit is 0.
    have hnearest : nearest x = (4503599627370496 : Nat) * 2 ^ (unitExponent x + 1) := by
      rw [nearest, heq, zpow_add₀ two_ne_zero]
      push_cast
      ring
    rw [hnearest]
    exact represents_pack negative (by norm_num) (by omega) fun _ => le_rfl
  next hne =>
    exact represents_pack negative (lt_of_le_of_ne hle hne) hunit (le_significandNear h)

theorem Represents.exists_finite {negative : Bool} {magnitude : Rat} {number : Binary64}
    (h : Represents negative magnitude number) (hlt : magnitude < 2 ^ (1024 : Int)) :
    ∃ f : Finite, number = .finite f ∧ f.negative = negative ∧ f.magnitude = magnitude := by
  cases h with
  | finite f hnegative hmagnitude _ => exact ⟨f, rfl, hnegative, hmagnitude⟩
  | infinity hle => exact absurd hle (not_le.mpr hlt)

/-! ## Numbers that are not rounded -/

namespace Finite

theorem magnitude_nonneg (f : Finite) : 0 ≤ f.magnitude := by
  rw [magnitude]
  positivity

theorem magnitude_lt (f : Finite) : f.magnitude < 2 ^ (1024 : Int) := by
  have h := represents_pack_of_canonical f.negative f.canonical
  rw [pack_of_canonical f.canonical] at h
  cases h with
  | finite _ _ _ hlt => exact hlt

/-- A greater exponent goes with a significand of full length, and thus with a greater
magnitude. -/
theorem exponent_le_of_magnitude_le {f g : Finite} (h : f.magnitude ≤ g.magnitude) :
    f.exponent ≤ g.exponent := by
  by_contra hlt
  obtain ⟨hshort, hlow, -, -⟩ := g.canonical
  obtain ⟨-, -, -, hlong⟩ := f.canonical
  have hf : 4503599627370496 ≤ f.significand := by omega
  have hgreater : g.magnitude < f.magnitude := by
    calc g.magnitude < 2 ^ (53 + g.exponent) := mul_zpow_lt hshort g.exponent
      _ ≤ 2 ^ (52 + f.exponent) := zpow_le_zpow_right₀ one_le_two (by omega)
      _ ≤ f.magnitude := le_mul_zpow hf f.exponent
  exact absurd h (not_le.mpr hgreater)

theorem eq_of_magnitude_eq {f g : Finite} (hnegative : f.negative = g.negative)
    (h : f.magnitude = g.magnitude) : f = g := by
  have hexponent : f.exponent = g.exponent :=
    le_antisymm (exponent_le_of_magnitude_le h.le) (exponent_le_of_magnitude_le h.ge)
  have hsignificand : f.significand = g.significand := by
    rw [magnitude, magnitude, hexponent] at h
    exact_mod_cast mul_right_cancel₀ (zpow_ne_zero _ two_ne_zero) h
  cases f
  cases g
  cases hnegative
  cases hexponent
  cases hsignificand
  rfl

theorem nearest_magnitude {f : Finite} (h : f.magnitude ≠ 0) :
    nearest f.magnitude = f.magnitude := by
  have hsignificand : f.significand ≠ 0 := by
    intro heq
    exact h (by rw [magnitude, heq, Nat.cast_zero, zero_mul])
  exact nearest_mul_zpow hsignificand f.canonical.1 f.canonical.2.1

theorem ofMagnitude_magnitude (f : Finite) (h : f.magnitude ≠ 0) :
    ofMagnitude f.negative f.magnitude = .finite f := by
  have hpos := lt_of_le_of_ne f.magnitude_nonneg h.symm
  have hrepresents := represents_ofMagnitude f.negative hpos
  rw [nearest_magnitude h] at hrepresents
  obtain ⟨g, hg, hnegative, hmagnitude⟩ := hrepresents.exists_finite f.magnitude_lt
  rw [hg, eq_of_magnitude_eq hnegative hmagnitude]

end Finite

/-- The sign that is meant for zero does not matter to other numbers. -/
theorem ofRat_signed (zeroSign negative : Bool) {magnitude : Rat} (h : 0 < magnitude) :
    ofRat zeroSign (if negative then -magnitude else magnitude) =
      ofMagnitude negative magnitude := by
  cases negative with
  | true =>
      have hne : ¬ -magnitude = 0 := by linarith
      have hneg : -magnitude < 0 := by linarith
      simp [ofRat, hne, hneg]
  | false => simp [ofRat, h.ne', h.le]

theorem pack_ne_nan (negative : Bool) (significand : Nat) (exponent : Int) :
    pack negative significand exponent ≠ .nan := by
  rw [pack]
  split <;> simp

theorem ofRat_ne_nan (zeroSign : Bool) (x : Rat) : ofRat zeroSign x ≠ .nan := by
  rw [ofRat, ofMagnitude, ofMagnitude]
  split_ifs <;> exact pack_ne_nan _ _ _

theorem canonical_zero : Canonical 0 (-1074) := by decide

theorem zero_eq (negative : Bool) : zero negative = .finite ⟨negative, 0, -1074, canonical_zero⟩ :=
  pack_of_canonical canonical_zero

/-- The number nearest to the value of a number is that number. -/
theorem ofRat_toRat (f : Finite) : ofRat f.negative f.toRat = .finite f := by
  by_cases hzero : f.magnitude = 0
  · have hrat : f.toRat = 0 := by simp [Finite.toRat, hzero]
    have hmagnitude : Finite.magnitude ⟨f.negative, 0, -1074, canonical_zero⟩ = f.magnitude := by
      rw [hzero, Finite.magnitude, Nat.cast_zero, zero_mul]
    have heq : ⟨f.negative, 0, -1074, canonical_zero⟩ = f :=
      Finite.eq_of_magnitude_eq rfl hmagnitude
    rw [ofRat, if_pos hrat, zero_eq, heq]
  · have hpos := lt_of_le_of_ne f.magnitude_nonneg (Ne.symm hzero)
    rw [Finite.toRat, ofRat_signed f.negative f.negative hpos, f.ofMagnitude_magnitude hzero]

/-! ## Numbers from decimals -/

theorem ofDecimal_of_coefficient_eq_zero {d : Decimal} (h : d.coefficient = 0) :
    ofDecimal d = .finite ⟨d.negative, 0, -1074, canonical_zero⟩ := by
  have hrat : d.toRat = 0 := by simp [Decimal.toRat, Decimal.magnitude, h]
  rw [ofDecimal, hrat, ofRat, if_pos rfl, zero_eq]

theorem represents_ofDecimal {d : Decimal} (h : d.coefficient ≠ 0) :
    0 < d.magnitude ∧ Represents d.negative (nearest d.magnitude) (ofDecimal d) := by
  have hpos : 0 < d.magnitude := by
    rw [Decimal.magnitude]
    positivity
  rw [ofDecimal, Decimal.toRat, ofRat_signed _ _ hpos]
  exact ⟨hpos, represents_ofMagnitude d.negative hpos⟩

end Galley.Binary64
