import Mathlib
import Galley.Dimension
import Galley.Proofs.Text.Digit

/-! # Decimals written in ASCII digits -/

namespace Galley

/-- A decimal as it is written: digits, and perhaps a dot with more digits behind it. There is a
digit on one side of the dot at least. -/
structure Numeral where
  whole : List (Fin 10)
  places? : Option (List (Fin 10))
  ne_nil : whole ++ places?.getD [] ≠ []

namespace Numeral

def digitChar (d : Fin 10) : Char :=
  Nat.digitChar d

def places (numeral : Numeral) : List (Fin 10) :=
  numeral.places?.getD []

def digits (numeral : Numeral) : List (Fin 10) :=
  numeral.whole ++ numeral.places

def chars (numeral : Numeral) : List Char :=
  numeral.whole.map digitChar ++
    match numeral.places? with
    | none => []
    | some places => '.' :: places.map digitChar

/-- The number that the digits denote without the dot. -/
def coefficient (numeral : Numeral) : Nat :=
  Nat.ofDigits 10 (numeral.digits.reverse.map (·.val))

def value (numeral : Numeral) : Rat :=
  numeral.coefficient / 10 ^ numeral.places.length

/-! ## Digits -/

theorem digitValue?_digitChar (d : Fin 10) : Text.digitValue? (digitChar d) = some d.val := by
  fin_cases d <;> rfl

theorem isDigit_digitChar (d : Fin 10) : Text.isDigit (digitChar d) = true := by
  rw [Text.isDigit, digitValue?_digitChar, Option.isSome_some]

theorem digitChar_ne_dot (d : Fin 10) : digitChar d ≠ '.' := by
  revert d
  decide

theorem natOfDigits_map_digitChar (ds : List (Fin 10)) :
    Text.natOfDigits (ds.map digitChar) = Nat.ofDigits 10 (ds.reverse.map (·.val)) := by
  simp [Text.natOfDigits_eq_ofDigits, Function.comp_def, digitValue?_digitChar]

theorem natOfDigits?_map_digitChar (ds : List (Fin 10)) :
    Text.natOfDigits? (ds.map digitChar) = some (Nat.ofDigits 10 (ds.reverse.map (·.val))) := by
  have hall : (ds.map digitChar).all Text.isDigit = true := by
    simp [isDigit_digitChar]
  rw [Text.natOfDigits?, if_pos hall, natOfDigits_map_digitChar]

/-! ## Reading a numeral -/

theorem isMagnitudeChar_of_mem {numeral : Numeral} {c : Char} (h : c ∈ numeral.chars) :
    Dimension.isMagnitudeChar c = true := by
  have hdigit : ∀ d, Dimension.isMagnitudeChar (digitChar d) = true := by
    intro d
    simp [Dimension.isMagnitudeChar, isDigit_digitChar]
  rw [chars, List.mem_append] at h
  rcases h with h | h
  · obtain ⟨d, -, rfl⟩ := List.mem_map.mp h
    exact hdigit d
  · cases hplaces : numeral.places? with
    | none => simp [hplaces] at h
    | some places =>
        rw [hplaces] at h
        rcases List.mem_cons.mp h with rfl | h
        · rfl
        · obtain ⟨d, -, rfl⟩ := List.mem_map.mp h
          exact hdigit d

theorem chars_ne_nil (numeral : Numeral) : numeral.chars ≠ [] := by
  intro h
  apply numeral.ne_nil
  rw [chars, List.append_eq_nil_iff, List.map_eq_nil_iff] at h
  obtain ⟨hwhole, hplaces⟩ := h
  cases hcases : numeral.places? with
  | none => simp [hwhole]
  | some places => simp [hcases] at hplaces

theorem takeWhile_chars (numeral : Numeral) :
    numeral.chars.takeWhile (· != '.') = numeral.whole.map digitChar := by
  have hwhole : ∀ c ∈ numeral.whole.map digitChar, (c != '.') = true := by
    intro c hc
    obtain ⟨d, -, rfl⟩ := List.mem_map.mp hc
    simpa using digitChar_ne_dot d
  rw [chars, List.takeWhile_append_of_pos hwhole]
  cases numeral.places? <;> simp

theorem drop_dropWhile_chars (numeral : Numeral) :
    (numeral.chars.dropWhile (· != '.')).drop 1 = numeral.places.map digitChar := by
  have hwhole : ∀ c ∈ numeral.whole.map digitChar, (c != '.') = true := by
    intro c hc
    obtain ⟨d, -, rfl⟩ := List.mem_map.mp hc
    simpa using digitChar_ne_dot d
  rw [chars, List.dropWhile_append_of_pos hwhole, places]
  cases numeral.places? <;> simp

theorem ofNumeral?_chars (numeral : Numeral) :
    Decimal.ofNumeral? numeral.chars =
      some ⟨false, numeral.coefficient, -numeral.places.length⟩ := by
  have hdigits : numeral.whole.map digitChar ++ numeral.places.map digitChar =
      numeral.digits.map digitChar := by
    rw [digits, List.map_append]
  have hsome : ((numeral.whole.map digitChar).isEmpty &&
      (numeral.places.map digitChar).isEmpty) = false := by
    rw [Bool.eq_false_iff]
    intro h
    simp only [Bool.and_eq_true, List.isEmpty_iff, List.map_eq_nil_iff] at h
    exact numeral.ne_nil (List.append_eq_nil_iff.mpr h)
  rw [Decimal.ofNumeral?, takeWhile_chars, drop_dropWhile_chars]
  simp only [hsome, Bool.false_eq_true, if_false, hdigits, natOfDigits?_map_digitChar,
    Option.map_some, List.length_map]
  rfl

/-- What is read for a numeral is the number nearest to its value. -/
theorem magnitude_chars (numeral : Numeral) :
    Dimension.magnitude numeral.chars = .ok (Binary64.ofRat false numeral.value) := by
  have hvalue : Decimal.toRat ⟨false, numeral.coefficient, -numeral.places.length⟩ =
      numeral.value := by
    simp [Decimal.toRat, Decimal.magnitude, value, div_eq_mul_inv]
  rw [Dimension.magnitude, ofNumeral?_chars]
  simp only [Binary64.ofDecimal, hvalue]

end Numeral

end Galley
