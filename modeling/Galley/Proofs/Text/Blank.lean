import Mathlib
import Galley.Proofs.Text.Digit
import Galley.Text.Blank

/-! # White space and words -/

namespace Galley.Text

theorem blank?_eq_some_iff {cs rest : List Char} :
    blank? cs = some rest ↔ ∃ c, isBlank c = true ∧ cs = c :: rest := by
  cases cs with
  | nil => simp [blank?]
  | cons c cs =>
      simp only [blank?, Option.ite_none_right_eq_some, Option.some.injEq, List.cons.injEq]
      constructor
      · rintro ⟨hblank, rfl⟩
        exact ⟨c, hblank, rfl, rfl⟩
      · rintro ⟨d, hblank, rfl, rfl⟩
        exact ⟨hblank, rfl⟩

/-- No digit of any block is white space. -/
theorem isBlank_of_isDigit {c : Char} (h : isDigit c = true) : isBlank c = false := by
  obtain ⟨value, hlt, z, hz, hcode⟩ := isDigit_iff.mp h
  have hblocks : ∀ z ∈ digitZeros, ∀ k < 10, isBlank (Char.ofNat (z + k)) = false := by
    decide +kernel
  have hblank := hblocks z hz value hlt
  rwa [← hcode, Char.ofNat_toNat] at hblank

end Galley.Text
