import Mathlib
import Galley.Dimension
import Galley.Proofs.Binary64.Nearest
import Galley.Proofs.Text.Blank

/-!
# Runs of digits and dots

A run denotes a number when it has a digit and no second dot. It is read as the number nearest to
what it denotes.
-/

namespace Galley.Dimension

/-- Decimal digits of any block and dots, one of them at least. -/
def IsRun (run : List Char) : Prop :=
  run ≠ [] ∧ ∀ c ∈ run, c = '.' ∨ Text.isDigit c = true

/-- A run with a digit, and with one dot at most. -/
def IsNumber (run : List Char) : Prop :=
  (∃ c ∈ run, Text.isDigit c = true) ∧ run.count '.' ≤ 1

instance : DecidablePred IsNumber :=
  fun run => inferInstanceAs (Decidable ((∃ c ∈ run, Text.isDigit c = true) ∧ run.count '.' ≤ 1))

/-- The decimal that a run denotes, its places being the digits behind the dot. -/
def value (run : List Char) : Rat :=
  Text.natOfDigits (run.filter (· != '.')) / 10 ^ ((run.dropWhile (· != '.')).drop 1).length

theorem isMagnitudeChar_iff (c : Char) :
    isMagnitudeChar c = true ↔ c = '.' ∨ Text.isDigit c = true := by
  simp [isMagnitudeChar]

theorem IsRun.isMagnitudeChar {run : List Char} (hrun : IsRun run) :
    ∀ c ∈ run, Dimension.isMagnitudeChar c = true :=
  fun c hc => (isMagnitudeChar_iff c).mpr (hrun.2 c hc)

theorem isRun_takeWhile {cs : List Char} (h : cs.takeWhile isMagnitudeChar ≠ []) :
    IsRun (cs.takeWhile isMagnitudeChar) :=
  ⟨h, fun c hc => (isMagnitudeChar_iff c).mp (List.mem_takeWhile_imp hc)⟩

theorem isDigit_dot : Text.isDigit '.' = false := rfl

theorem isDigit_iff_ne_dot {c : Char} (h : c = '.' ∨ Text.isDigit c = true) :
    Text.isDigit c = true ↔ c ≠ '.' := by
  constructor
  · rintro hdigit rfl
    rw [isDigit_dot] at hdigit
    cases hdigit
  · exact h.resolve_left

theorem isBlank_eq_false {c : Char} (h : c = '.' ∨ Text.isDigit c = true) :
    Text.isBlank c = false := by
  rcases h with rfl | hdigit
  · rfl
  · exact Text.isBlank_of_isDigit hdigit

/-! ## Runs of digits -/

theorem isDigit_of_mem {run : List Char} (hrun : ∀ c ∈ run, c = '.' ∨ Text.isDigit c = true)
    (h : '.' ∉ run) : ∀ c ∈ run, Text.isDigit c = true := by
  intro c hc
  refine (isDigit_iff_ne_dot (hrun c hc)).mpr ?_
  rintro rfl
  exact h hc

theorem not_mem_dot {digits : List Char} (h : ∀ c ∈ digits, Text.isDigit c = true) :
    '.' ∉ digits := by
  intro hdot
  have hdigit := h '.' hdot
  rw [isDigit_dot] at hdigit
  cases hdigit

theorem isNumber_of_digits {digits : List Char} (hne : digits ≠ [])
    (h : ∀ c ∈ digits, Text.isDigit c = true) : IsNumber digits := by
  obtain ⟨c, hc⟩ := List.exists_mem_of_ne_nil _ hne
  refine ⟨⟨c, hc, h c hc⟩, ?_⟩
  rw [List.count_eq_zero_of_not_mem (not_mem_dot h)]
  exact zero_le_one

/-! ## Reading a run -/

/-- A run has no dot, or it is cut in two by its first one. -/
theorem cases_dot (run : List Char) :
    '.' ∉ run ∨ ∃ whole places, run = whole ++ '.' :: places ∧ '.' ∉ whole := by
  by_cases h : '.' ∈ run
  · obtain ⟨whole, places, hrun, hwhole⟩ := List.eq_append_cons_of_mem h
    exact .inr ⟨whole, places, hrun, hwhole⟩
  · exact .inl h

theorem mem_append_cons_of_mem_append {whole places : List Char} {c : Char}
    (hc : c ∈ whole ++ places) : c ∈ whole ++ '.' :: places :=
  ((List.sublist_cons_self '.' places).append_left whole).mem hc

section Reading

variable {whole places : List Char} (h : '.' ∉ whole)
include h

theorem ne_dot_of_mem {c : Char} (hc : c ∈ whole) : (c != '.') = true := by
  rw [bne_iff_ne]
  rintro rfl
  exact h hc

theorem ofNumeral?_of_not_mem :
    Decimal.ofNumeral? whole =
      if whole = [] then none else (Text.natOfDigits? whole).map (⟨false, ·, 0⟩) := by
  have hfront := List.takeWhile_eq_self_iff.mpr fun c hc => ne_dot_of_mem h hc
  have hback := List.dropWhile_eq_nil_iff.mpr fun c hc => ne_dot_of_mem h hc
  simp [Decimal.ofNumeral?, hfront, hback]

theorem ofNumeral?_append :
    Decimal.ofNumeral? (whole ++ '.' :: places) =
      if whole ++ places = [] then none
      else (Text.natOfDigits? (whole ++ places)).map (⟨false, ·, -places.length⟩) := by
  have hfront : (whole ++ '.' :: places).takeWhile (· != '.') = _ :=
    List.takeWhile_append_of_pos fun c hc => ne_dot_of_mem h hc
  have hback : (whole ++ '.' :: places).dropWhile (· != '.') = _ :=
    List.dropWhile_append_of_pos fun c hc => ne_dot_of_mem h hc
  simp [Decimal.ofNumeral?, hfront, hback]

theorem value_of_not_mem : value whole = Text.natOfDigits whole := by
  have hback := List.dropWhile_eq_nil_iff.mpr fun c hc => ne_dot_of_mem h hc
  have hfilter := List.filter_eq_self.mpr fun c hc => ne_dot_of_mem h hc
  simp [value, hback, hfilter]

theorem value_append (hplaces : '.' ∉ places) :
    value (whole ++ '.' :: places) = Text.natOfDigits (whole ++ places) / 10 ^ places.length := by
  have hback : (whole ++ '.' :: places).dropWhile (· != '.') = _ :=
    List.dropWhile_append_of_pos fun c hc => ne_dot_of_mem h hc
  have hfilter := List.filter_eq_self.mpr fun c hc => ne_dot_of_mem h hc
  have hfilterPlaces := List.filter_eq_self.mpr fun c hc => ne_dot_of_mem hplaces hc
  simp [value, hback, List.filter_append, hfilter, hfilterPlaces]

theorem isNumber_append_iff (hrun : ∀ c ∈ whole ++ '.' :: places, c = '.' ∨ Text.isDigit c = true) :
    IsNumber (whole ++ '.' :: places) ↔ '.' ∉ places ∧ whole ++ places ≠ [] := by
  have hcount : (whole ++ '.' :: places).count '.' ≤ 1 ↔ '.' ∉ places := by
    rw [List.count_append, List.count_eq_zero_of_not_mem h, List.count_cons_self,
      ← List.count_eq_zero]
    omega
  rw [IsNumber, hcount, and_comm]
  refine and_congr_right fun hplaces => ?_
  constructor
  · rintro ⟨c, hc, hdigit⟩ hnil
    obtain ⟨rfl, rfl⟩ := List.append_eq_nil_iff.mp hnil
    rw [List.mem_singleton.mp hc, isDigit_dot] at hdigit
    cases hdigit
  · intro hne
    obtain ⟨c, hc⟩ := List.exists_mem_of_ne_nil _ hne
    have hmem := mem_append_cons_of_mem_append hc
    refine ⟨c, hmem, (isDigit_iff_ne_dot (hrun c hmem)).mpr ?_⟩
    rintro rfl
    rcases List.mem_append.mp hc with hc | hc
    · exact h hc
    · exact hplaces hc

end Reading

theorem natOfDigits?_of_not_mem {run : List Char}
    (hrun : ∀ c ∈ run, c = '.' ∨ Text.isDigit c = true) (h : '.' ∉ run) :
    Text.natOfDigits? run = some (Text.natOfDigits run) := by
  have hall : run.all Text.isDigit = true := List.all_eq_true.mpr (isDigit_of_mem hrun h)
  rw [Text.natOfDigits?, if_pos hall]

theorem natOfDigits?_of_mem {run : List Char} (h : '.' ∈ run) : Text.natOfDigits? run = none := by
  rw [Text.natOfDigits?, if_neg]
  intro hall
  exact not_mem_dot (List.all_eq_true.mp hall) h

section Run

variable {run : List Char} (hrun : IsRun run)
include hrun

/-- What a run denotes is read. -/
theorem ofNumeral?_of_isNumber (h : IsNumber run) :
    ∃ d, Decimal.ofNumeral? run = some d ∧ d.negative = false ∧ d.toRat = value run := by
  obtain ⟨hne, hchars⟩ := hrun
  rcases cases_dot run with hdot | ⟨whole, places, rfl, hwhole⟩
  · refine ⟨⟨false, Text.natOfDigits run, 0⟩, ?_, rfl, ?_⟩
    · rw [ofNumeral?_of_not_mem hdot, if_neg hne, natOfDigits?_of_not_mem hchars hdot]
      rfl
    · simp [value_of_not_mem hdot, Decimal.toRat, Decimal.magnitude]
  · obtain ⟨hplaces, hdigits⟩ := (isNumber_append_iff hwhole hchars).mp h
    have hdot : '.' ∉ whole ++ places := by
      rw [List.mem_append]
      exact not_or.mpr ⟨hwhole, hplaces⟩
    refine ⟨⟨false, Text.natOfDigits (whole ++ places), -places.length⟩, ?_, rfl, ?_⟩
    · rw [ofNumeral?_append hwhole, if_neg hdigits, natOfDigits?_of_not_mem ?_ hdot]
      · rfl
      · intro c hc
        exact hchars c (mem_append_cons_of_mem_append hc)
    · simp [value_append hwhole hplaces, Decimal.toRat, Decimal.magnitude, div_eq_mul_inv]

theorem ofNumeral?_of_not_isNumber (h : ¬ IsNumber run) : Decimal.ofNumeral? run = none := by
  obtain ⟨hne, hchars⟩ := hrun
  rcases cases_dot run with hdot | ⟨whole, places, rfl, hwhole⟩
  · -- Without a dot a run is made of digits, which are a number.
    exact absurd (isNumber_of_digits hne (isDigit_of_mem hchars hdot)) h
  · rw [isNumber_append_iff hwhole hchars] at h
    rw [ofNumeral?_append hwhole]
    by_cases hnil : whole ++ places = []
    · rw [if_pos hnil]
    · have hmem : '.' ∈ whole ++ places := by
        by_contra hdot
        exact h ⟨fun hplaces => hdot (List.mem_append_right _ hplaces), hnil⟩
      rw [if_neg hnil, natOfDigits?_of_mem hmem]
      rfl

/-- A run that denotes a number is read as the number nearest to it. -/
theorem magnitude_of_isNumber (h : IsNumber run) :
    ∃ x, magnitude run = .ok x ∧ Binary64.NearestTo (value run) x ∧ x.isNegative = false := by
  obtain ⟨d, hd, hnegative, hvalue⟩ := ofNumeral?_of_isNumber hrun h
  refine ⟨.ofDecimal d, ?_, ?_, ?_⟩
  · rw [magnitude, hd]
  · rw [← hvalue]
    exact Binary64.nearestTo_ofRat _ _
  · rw [Binary64.isNegative_ofDecimal, hnegative]

theorem magnitude_of_not_isNumber (h : ¬ IsNumber run) :
    magnitude run = .error (.notNumber (String.ofList run)) := by
  rw [magnitude, ofNumeral?_of_not_isNumber hrun h]

theorem magnitude_eq_error_iff {cause : Fault} :
    magnitude run = .error cause ↔ ¬ IsNumber run ∧ cause = .notNumber (String.ofList run) := by
  by_cases h : IsNumber run
  · obtain ⟨x, hx, -⟩ := magnitude_of_isNumber hrun h
    simp [hx, h]
  · simp [magnitude_of_not_isNumber hrun h, h, eq_comm]

theorem nearestTo_of_magnitude {x : Binary64} (h : magnitude run = .ok x) :
    IsNumber run ∧ Binary64.NearestTo (value run) x ∧ x.isNegative = false := by
  by_cases hnumber : IsNumber run
  · obtain ⟨y, hy, hnearest⟩ := magnitude_of_isNumber hrun hnumber
    obtain rfl : x = y := Except.ok.inj (h.symm.trans hy)
    exact ⟨hnumber, hnearest⟩
  · rw [magnitude_of_not_isNumber hrun hnumber] at h
    cases h

end Run

end Galley.Dimension
