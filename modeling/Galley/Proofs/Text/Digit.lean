import Mathlib
import Galley.Text.Digit
import Galley.Text.Integer

/-! # What digits of any block denote -/

namespace Galley.Text

/-- A digit stands that many code points behind the zero of its block. -/
def StandsFor (c : Char) (value : Nat) : Prop :=
  value < 10 ∧ ∃ z ∈ digitZeros, c.toNat = z + value

/-- Digits of any blocks, the most significant first, and the number that they denote. -/
def Denotes (digits : List Char) (n : Nat) : Prop :=
  ∃ values, List.Forall₂ StandsFor digits values ∧ n = Nat.ofDigits 10 values.reverse

/-! ## Single digits -/

theorem digitZeros_apart : digitZeros.Pairwise fun z w => z + 10 ≤ w := by
  decide

/-- No character belongs to two blocks. -/
theorem zero_unique {z w : Nat} (hz : z ∈ digitZeros) (hw : w ∈ digitZeros)
    (h : z < w + 10) (h' : w < z + 10) : z = w := by
  obtain ⟨i, hi, rfl⟩ := List.getElem_of_mem hz
  obtain ⟨j, hj, rfl⟩ := List.getElem_of_mem hw
  have hapart := List.pairwise_iff_getElem.mp digitZeros_apart
  rcases Nat.lt_trichotomy i j with hij | rfl | hji
  · have hle := hapart i j hi hj hij
    omega
  · rfl
  · have hle := hapart j i hj hi hji
    omega

theorem digitValue?_eq_some_iff {c : Char} {value : Nat} :
    digitValue? c = some value ↔ StandsFor c value := by
  rw [digitValue?, Option.map_eq_some_iff]
  constructor
  · rintro ⟨z, hfind, rfl⟩
    have hblock := List.find?_some hfind
    simp only [Bool.and_eq_true, decide_eq_true_eq] at hblock
    exact ⟨by omega, z, List.mem_of_find?_eq_some hfind, by omega⟩
  · rintro ⟨hlt, z, hz, hcode⟩
    cases hfind : digitZeros.find? fun z => z ≤ c.toNat && c.toNat < z + 10 with
    | none =>
        have hnone := List.find?_eq_none.mp hfind z hz
        simp only [Bool.and_eq_true, decide_eq_true_eq] at hnone
        omega
    | some w =>
        have hblock := List.find?_some hfind
        simp only [Bool.and_eq_true, decide_eq_true_eq] at hblock
        have hsame := zero_unique hz (List.mem_of_find?_eq_some hfind) (by omega) (by omega)
        exact ⟨w, rfl, by omega⟩

theorem isDigit_iff {c : Char} : isDigit c = true ↔ ∃ value, StandsFor c value := by
  simp [isDigit, Option.isSome_iff_exists, digitValue?_eq_some_iff]

/-! ## Runs of digits -/

theorem natOfDigits_eq_ofDigits (digits : List Char) :
    natOfDigits digits =
      Nat.ofDigits 10 (digits.map fun c => (digitValue? c).getD 0).reverse := by
  rw [natOfDigits, Nat.ofDigits_eq_foldr, List.foldr_reverse, List.foldl_map]
  congr 1
  funext n c
  rw [Nat.cast_id, Nat.add_comm]

theorem forall₂_standsFor_iff {digits : List Char} {values : List Nat} :
    List.Forall₂ StandsFor digits values ↔
      (∀ c ∈ digits, isDigit c = true) ∧ values = digits.map fun c => (digitValue? c).getD 0 := by
  induction digits generalizing values with
  | nil => simp [List.forall₂_nil_left_iff]
  | cons c digits ih =>
      rw [List.forall₂_cons_left_iff]
      simp only [ih, ← digitValue?_eq_some_iff, List.forall_mem_cons, List.map_cons]
      constructor
      · rintro ⟨value, rest, hvalue, ⟨hdigits, rfl⟩, rfl⟩
        exact ⟨⟨by simp [isDigit, hvalue], hdigits⟩, by simp [hvalue]⟩
      · rintro ⟨⟨hdigit, hdigits⟩, rfl⟩
        obtain ⟨value, hvalue⟩ := Option.isSome_iff_exists.mp hdigit
        exact ⟨value, _, hvalue, ⟨hdigits, rfl⟩, by simp [hvalue]⟩

theorem denotes_iff {digits : List Char} {n : Nat} :
    Denotes digits n ↔ (∀ c ∈ digits, isDigit c = true) ∧ natOfDigits digits = n := by
  simp only [Denotes, forall₂_standsFor_iff, natOfDigits_eq_ofDigits]
  constructor
  · rintro ⟨values, ⟨hdigits, rfl⟩, rfl⟩
    exact ⟨hdigits, rfl⟩
  · rintro ⟨hdigits, rfl⟩
    exact ⟨_, ⟨hdigits, rfl⟩, rfl⟩

theorem Denotes.lt {digits : List Char} {n : Nat} (h : Denotes digits n) :
    n < 10 ^ digits.length := by
  obtain ⟨values, hvalues, rfl⟩ := h
  have hlt : ∀ value ∈ values.reverse, value < 10 := by
    intro value hvalue
    rw [List.mem_reverse] at hvalue
    obtain ⟨i, hi, rfl⟩ := List.getElem_of_mem hvalue
    exact (hvalues.get (hvalues.length_eq ▸ hi) hi).1
  have hbound := Nat.ofDigits_lt_base_pow_length (by decide) hlt
  rwa [List.length_reverse, ← hvalues.length_eq] at hbound

/-! ## Decimal digits of natural numbers -/

theorem standsFor_of_isDigit {c : Char} (h : c.isDigit = true) :
    StandsFor c (c.toNat - '0'.toNat) := by
  simp only [Char.isDigit, Bool.and_eq_true, decide_eq_true_eq, UInt32.le_iff_toNat_le] at h
  have hlow : '0'.toNat ≤ c.toNat := h.1
  have hhigh : c.toNat ≤ '9'.toNat := h.2
  have hnine : '9'.toNat = '0'.toNat + 9 := rfl
  exact ⟨by omega, '0'.toNat, by decide, by omega⟩

theorem isDigit_of_mem_natChars {n : Nat} {c : Char} (h : c ∈ natChars n) : c.isDigit = true :=
  Nat.isDigit_of_mem_toDigits (by decide) (by decide) h

theorem denotes_natChars (n : Nat) : Denotes (natChars n) n := by
  rw [denotes_iff]
  constructor
  · intro c hc
    exact isDigit_iff.mpr ⟨_, standsFor_of_isDigit (isDigit_of_mem_natChars hc)⟩
  · have hread : natOfDigits (natChars n) = Nat.ofDigitChars 10 (natChars n) 0 := by
      apply List.foldl_ext
      intro m c hc
      have hvalue := standsFor_of_isDigit (isDigit_of_mem_natChars hc)
      rw [digitValue?_eq_some_iff.mpr hvalue, Option.getD_some]
    rw [hread, natChars, Nat.ofDigitChars_toDigits (by decide) (by decide)]

end Galley.Text
