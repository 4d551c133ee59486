import Mathlib
import Galley.Binary64.Checked
import Galley.Proofs.Binary64.Bounds
import Galley.Proofs.Binary64.Nearest

/-!
# The order of numbers

Rounding keeps the order of what is rounded, and so does every operation that keeps the order of
exact results.
-/

namespace Galley.Binary64

/-- The numbers in order, from one infinity to the other. Not-a-number is not comparable, not even
with itself. -/
def AtMost : Binary64 → Binary64 → Prop
  | .nan, _ | _, .nan => False
  | .infinity m, .infinity n => m = true ∨ n = false
  | .infinity m, .finite _ => m = true
  | .finite _, .infinity n => n = false
  | .finite f, .finite g => f.toRat ≤ g.toRat

instance : LE Binary64 := ⟨AtMost⟩

theorem finite_le_finite {f g : Finite} :
    Binary64.finite f ≤ .finite g ↔ f.toRat ≤ g.toRat :=
  Iff.rfl

theorem le_infinity {x : Binary64} (h : x ≠ .nan) : x ≤ .infinity false := by
  cases x with
  | nan => exact absurd rfl h
  | infinity m => exact .inr rfl
  | finite f => exact rfl

theorem infinity_le {x : Binary64} (h : x ≠ .nan) : .infinity true ≤ x := by
  cases x with
  | nan => exact absurd rfl h
  | infinity m => exact .inl rfl
  | finite f => exact rfl

/-- The order is that of rational numbers, between two infinities. -/
theorem le_cases {x y : Binary64} (h : x ≤ y) :
    (x = .infinity true ∧ y ≠ .nan) ∨ (x ≠ .nan ∧ y = .infinity false) ∨
      ∃ f g, x = .finite f ∧ y = .finite g ∧ f.toRat ≤ g.toRat := by
  change AtMost x y at h
  cases x <;> cases y <;> simp_all [AtMost]

theorem ne_nan_of_le {x y : Binary64} (h : x ≤ y) : x ≠ .nan ∧ y ≠ .nan := by
  rcases le_cases h with ⟨rfl, hy⟩ | ⟨hx, rfl⟩ | ⟨f, g, rfl, rfl, -⟩
  · exact ⟨nofun, hy⟩
  · exact ⟨hx, nofun⟩
  · exact ⟨nofun, nofun⟩

/-- A number is at most zero when the order says so. -/
theorem isNonpositive_iff_le_zero (x : Binary64) : x.isNonpositive = true ↔ x ≤ zero false := by
  rw [zero_eq]
  cases x with
  | nan => exact ⟨fun h => Bool.noConfusion h, fun h => absurd h id⟩
  | infinity m =>
      change (m || false) = true ↔ m = true
      rw [Bool.or_false]
  | finite f =>
      have hrat : Finite.toRat ⟨false, 0, -1074, canonical_zero⟩ = 0 := by
        simp [Finite.toRat, Finite.magnitude]
      rw [finite_le_finite, hrat, ← not_lt, ← isNonpositive_finite]
      simp

/-! ## Ranks -/

/-- A rational number in the place of each number, with the infinities next beyond the finite
ones. -/
def rank : Binary64 → Rat
  | .nan => 0
  | .infinity negative => if negative then -2 ^ (1024 : Int) else 2 ^ (1024 : Int)
  | .finite f => f.toRat

theorem le_iff_rank_le {x y : Binary64} (hx : x ≠ .nan) (hy : y ≠ .nan) :
    x ≤ y ↔ x.rank ≤ y.rank := by
  have hpos : (0 : Rat) < 2 ^ (1024 : Int) := by positivity
  have hfinite : ∀ f : Finite, |f.toRat| < 2 ^ (1024 : Int) :=
    fun f => f.abs_toRat.trans_lt f.magnitude_lt
  change AtMost x y ↔ _
  cases x with
  | nan => exact absurd rfl hx
  | infinity m =>
      cases y with
      | nan => exact absurd rfl hy
      | infinity n => cases m <;> cases n <;> simp only [AtMost, rank] <;> grind
      | finite g =>
          have hg := abs_lt.mp (hfinite g)
          cases m <;> simp only [AtMost, rank] <;> grind
  | finite f =>
      have hf := abs_lt.mp (hfinite f)
      cases y with
      | nan => exact absurd rfl hy
      | infinity n => cases n <;> simp only [AtMost, rank] <;> grind
      | finite g => exact Iff.rfl

theorem Represents.rank_eq {negative : Bool} {magnitude : Rat} {x : Binary64}
    (h : Represents negative magnitude x) :
    x.rank = if negative then -min magnitude (2 ^ (1024 : Int))
      else min magnitude (2 ^ (1024 : Int)) := by
  cases h with
  | finite f hnegative hmagnitude hlt =>
      rw [rank, Finite.toRat, hnegative, hmagnitude, min_eq_left hlt.le]
  | infinity hle => rw [rank, min_eq_right hle]

theorem nearest_nonneg (x : Rat) : 0 ≤ nearest x := by
  rw [nearest]
  positivity

section Rank

variable (zeroSign : Bool) {x y : Rat}

theorem rank_ofRat_zero : (ofRat zeroSign 0).rank = 0 := by
  rw [ofRat, if_pos rfl, zero_eq, rank]
  simp [Finite.toRat, Finite.magnitude]

theorem rank_ofRat_of_pos (h : 0 < x) :
    (ofRat zeroSign x).rank = min (nearest x) (2 ^ (1024 : Int)) := by
  have hsigned := ofRat_signed zeroSign false h
  rw [if_neg Bool.false_ne_true] at hsigned
  rw [hsigned, (represents_ofMagnitude false h).rank_eq, if_neg Bool.false_ne_true]

theorem rank_ofRat_neg (h : 0 < x) :
    (ofRat zeroSign (-x)).rank = -min (nearest x) (2 ^ (1024 : Int)) := by
  have hsigned := ofRat_signed zeroSign true h
  rw [if_pos rfl] at hsigned
  rw [hsigned, (represents_ofMagnitude true h).rank_eq, if_pos rfl]

theorem rank_ofRat_nonneg (h : 0 ≤ x) : 0 ≤ (ofRat zeroSign x).rank := by
  rcases h.eq_or_lt with rfl | hpos
  · rw [rank_ofRat_zero]
  · rw [rank_ofRat_of_pos zeroSign hpos]
    exact le_min (nearest_nonneg x) (by positivity)

theorem rank_ofRat_nonpos (h : x ≤ 0) : (ofRat zeroSign x).rank ≤ 0 := by
  rcases h.eq_or_lt with rfl | hneg
  · rw [rank_ofRat_zero]
  · rw [← neg_neg x, rank_ofRat_neg zeroSign (neg_pos.mpr hneg), neg_nonpos]
    exact le_min (nearest_nonneg _) (by positivity)

/-- Rounding keeps the order, whatever signs its zeros have. -/
theorem ofRat_mono (otherSign : Bool) (h : x ≤ y) : ofRat zeroSign x ≤ ofRat otherSign y := by
  rw [le_iff_rank_le (ofRat_ne_nan _ _) (ofRat_ne_nan _ _)]
  rcases le_or_gt y 0 with hy | hy
  · rcases hy.eq_or_lt with rfl | hy
    · exact (rank_ofRat_nonpos zeroSign h).trans (rank_ofRat_zero otherSign).ge
    · have hmono := nearest_mono (neg_pos.mpr hy) (neg_le_neg h)
      rw [← neg_neg x, ← neg_neg y, rank_ofRat_neg _ (neg_pos.mpr hy),
        rank_ofRat_neg _ (neg_pos.mpr (h.trans_lt hy))]
      exact neg_le_neg (min_le_min_right _ hmono)
  · rcases le_or_gt x 0 with hx | hx
    · exact (rank_ofRat_nonpos zeroSign hx).trans (rank_ofRat_nonneg otherSign hy.le)
    · rw [rank_ofRat_of_pos _ hx, rank_ofRat_of_pos _ hy]
      exact min_le_min_right _ (nearest_mono hx h)

end Rank

end Galley.Binary64
