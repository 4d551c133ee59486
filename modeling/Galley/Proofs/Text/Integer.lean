import Mathlib
import Galley.Proofs.Text.Digit
import Galley.Proofs.Text.Words
import Galley.Text.Numeral

/-! # Integers are read back as they are written -/

namespace Galley.Text

/-! ## Reading plain numerals -/

theorem trimNumeral_eq_self {cs : List Char} (h : ∀ c ∈ cs, isBlank c = false) :
    trimNumeral cs = cs := by
  have hdrop : ∀ ds : List Char, (∀ c ∈ ds, isBlank c = false) →
      ds.dropWhile isNumeralBlank = ds := by
    intro ds hds
    cases ds with
    | nil => rfl
    | cons c ds => rw [List.dropWhile_cons, isNumeralBlank, hds c (by simp)]; rfl
  rw [trimNumeral, hdrop cs h, hdrop cs.reverse (by simpa using h), List.reverse_reverse]

theorem dropUnderscores?_eq_some {cs : List Char} (h : '_' ∉ cs) (afterDigit : Bool) :
    dropUnderscores? afterDigit cs = some cs := by
  induction cs generalizing afterDigit with
  | nil => simp [dropUnderscores?]
  | cons c cs ih =>
      rw [List.mem_cons, not_or] at h
      rw [dropUnderscores?.eq_4, ih h.2, Option.map_some]
      · rintro rfl
        exact absurd rfl h.1
      · rintro _ _ rfl
        exact absurd rfl h.1

theorem natOfDigits?_natChars (n : Nat) : natOfDigits? (natChars n) = some n := by
  obtain ⟨hdigits, hvalue⟩ := denotes_iff.mp (denotes_natChars n)
  rw [natOfDigits?, if_pos (List.all_eq_true.mpr hdigits), hvalue]

/-! ## Integers -/

theorem natChars_ne_nil (n : Nat) : natChars n ≠ [] :=
  Nat.toDigits_ne_nil

theorem isBlank_of_mem_natChars {n : Nat} {c : Char} (h : c ∈ natChars n) : isBlank c = false :=
  isBlank_of_isDigit (isDigit_iff.mpr ⟨_, standsFor_of_isDigit (isDigit_of_mem_natChars h)⟩)

theorem eq_minus_or_mem_of_mem_integerChars {n : Int} {c : Char} (h : c ∈ integerChars n) :
    c = '-' ∨ c ∈ natChars n.natAbs := by
  rw [integerChars, List.mem_append] at h
  refine h.imp ?_ id
  intro hc
  split at hc
  · exact List.mem_singleton.mp hc
  · exact absurd hc List.not_mem_nil

theorem isWord_integerChars (n : Int) : IsWord (integerChars n) := by
  refine ⟨?_, ?_⟩
  · simp [integerChars, natChars_ne_nil]
  · intro c hc
    rcases eq_minus_or_mem_of_mem_integerChars hc with rfl | hc
    · rfl
    · exact isBlank_of_mem_natChars hc

theorem splitSign_natChars (n : Nat) : splitSign (natChars n) = (false, natChars n) := by
  unfold splitSign
  split
  · next cs hcs => exact absurd (isDigit_of_mem_natChars (hcs ▸ List.mem_cons_self)) (by decide)
  · next cs hcs => exact absurd (isDigit_of_mem_natChars (hcs ▸ List.mem_cons_self)) (by decide)
  · rfl

theorem signedInteger?_integerChars (n : Int) : signedInteger? (integerChars n) = some n := by
  have hempty : (natChars n.natAbs).isEmpty = false := by simp [natChars_ne_nil]
  by_cases hneg : n < 0
  · have hsplit : splitSign (integerChars n) = (true, natChars n.natAbs) := by
      rw [integerChars, if_pos hneg]
      rfl
    have hvalue : -(n.natAbs : Int) = n := by omega
    simp only [signedInteger?, hsplit, hempty, natOfDigits?_natChars]
    exact congrArg some hvalue
  · have hsplit : splitSign (integerChars n) = (false, natChars n.natAbs) := by
      rw [integerChars, if_neg hneg, List.nil_append, splitSign_natChars]
    have hvalue : (n.natAbs : Int) = n := by omega
    simp only [signedInteger?, hsplit, hempty, natOfDigits?_natChars]
    exact congrArg some hvalue

theorem integer?_integer (n : Int) : integer? (integer n) = some n := by
  have hunderscore : '_' ∉ integerChars n := by
    intro hmem
    rcases eq_minus_or_mem_of_mem_integerChars hmem with h | h
    · exact absurd h (by decide)
    · exact absurd (isDigit_of_mem_natChars h) (by decide)
  rw [integer?, integer, String.toList_ofList,
    trimNumeral_eq_self (isWord_integerChars n).not_blank, dropUnderscores?_eq_some hunderscore,
    Option.bind_some, signedInteger?_integerChars]

end Galley.Text
