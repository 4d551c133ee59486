import Mathlib
import Galley.Proofs.Binary64.Neighbours
import Galley.Proofs.Cut
import Galley.Proofs.Dimension

/-!
# The written form of a dimension

A dimension is a magnitude and its unit, with white space of any length before, between and behind
them. A text has at most one run of digits and dots before its unit. The text is read as the number
nearest to what this run denotes, and refused where there is no such run or where it denotes no
number.
-/

namespace Galley.Dimension

/-- A text with the unit behind `inside`, and white space around both. -/
inductive Framed (inside : List Char) : List Char → Prop where
  | frame {before between after : List Char} :
      (∀ c ∈ before, Text.isBlank c = true) → (∀ c ∈ between, Text.isBlank c = true) →
      (∀ c ∈ after, Text.isBlank c = true) →
      Framed inside (before ++ inside ++ between ++ ['p', 't'] ++ after)

/-- A magnitude and the number that it denotes: digits of any blocks with at most one dot among
them, and one digit at least. -/
inductive Denotes : List Char → Rat → Prop where
  | whole {digits : List Char} {n : Nat} : digits ≠ [] → Text.Denotes digits n →
      Denotes digits n
  | places {whole places : List Char} {n : Nat} : whole ++ places ≠ [] →
      Text.Denotes (whole ++ places) n →
      Denotes (whole ++ '.' :: places) (n / 10 ^ places.length)

/-- What a text is read as. -/
inductive Reads (text : String) : Except Fault Binary64 → Prop where
  | number {run : List Char} {value : Rat} {x : Binary64} : Framed run text.toList →
      Denotes run value → Binary64.NearestTo value x → x.isNegative = false → Reads text (.ok x)
  | notNumber {run : List Char} : Framed run text.toList → IsRun run → ¬ IsNumber run →
      Reads text (.error (.notNumber (String.ofList run)))
  | notDimension : (∀ run, IsRun run → ¬ Framed run text.toList) →
      Reads text (.error (.notDimension text))

/-! ## The run before the unit -/

theorem isMagnitudeChar_of_isBlank {c : Char} (h : Text.isBlank c = true) :
    isMagnitudeChar c = false := by
  rw [Bool.eq_false_iff]
  intro hchar
  rw [isBlank_eq_false ((isMagnitudeChar_iff c).mp hchar)] at h
  cases h

theorem IsRun.isBlank_head? {run : List Char} (hrun : IsRun run) (rest : List Char) :
    ∀ c ∈ (run ++ rest).head?, Text.isBlank c = false := by
  obtain ⟨hne, hchars⟩ := hrun
  obtain ⟨d, run, rfl⟩ := List.exists_cons_of_ne_nil hne
  intro c hc
  obtain rfl : d = c := Option.some.inj hc
  exact isBlank_eq_false (hchars d List.mem_cons_self)

theorem isMagnitudeChar_head?_between {between : List Char}
    (h : ∀ c ∈ between, Text.isBlank c = true) (rest : List Char) :
    ∀ c ∈ (between ++ 'p' :: rest).head?, isMagnitudeChar c = false := by
  cases between with
  | nil =>
      rintro c ⟨⟩
      rfl
  | cons blank between =>
      intro c hc
      obtain rfl : blank = c := Option.some.inj hc
      exact isMagnitudeChar_of_isBlank (h blank List.mem_cons_self)

theorem Framed.of_magnitudeRun? {cs run : List Char} (h : magnitudeRun? cs = some run) :
    IsRun run ∧ Framed run cs := by
  let body := cs.dropWhile Text.isBlank
  let behind := body.dropWhile isMagnitudeChar
  rw [magnitudeRun?] at h
  split at h
  next after hafter =>
    obtain ⟨hchecks, hrun⟩ := Option.ite_none_right_eq_some.mp h
    obtain rfl : body.takeWhile isMagnitudeChar = run := Option.some.inj hrun
    simp only [Bool.and_eq_true, Bool.not_eq_true', List.isEmpty_eq_false_iff, List.all_eq_true]
      at hchecks
    obtain ⟨hne, hblank⟩ := hchecks
    refine ⟨isRun_takeWhile hne, ?_⟩
    have hbehind : behind.takeWhile Text.isBlank ++ 'p' :: 't' :: after = behind := by
      rw [← hafter]
      exact List.takeWhile_append_dropWhile
    have hcs : cs.takeWhile Text.isBlank ++ body.takeWhile isMagnitudeChar ++
        behind.takeWhile Text.isBlank ++ ['p', 't'] ++ after = cs := by
      simp only [List.append_assoc, List.cons_append, List.nil_append, hbehind]
      rw [List.takeWhile_append_dropWhile, List.takeWhile_append_dropWhile]
    rw [← hcs]
    exact .frame (fun c hc => List.mem_takeWhile_imp hc) (fun c hc => List.mem_takeWhile_imp hc)
      hblank
  next => cases h

theorem Framed.magnitudeRun?_eq {cs run : List Char} (h : Framed run cs) (hrun : IsRun run) :
    magnitudeRun? cs = some run := by
  obtain @⟨before, between, after, hbefore, hbetween, hafter⟩ := h
  let behind := between ++ 'p' :: 't' :: after
  have htext : before ++ run ++ between ++ ['p', 't'] ++ after = before ++ (run ++ behind) := by
    simp [behind]
  have hstop := isMagnitudeChar_head?_between hbetween ('t' :: after)
  have hbody := dropWhile_append_of_head? hbefore (hrun.isBlank_head? behind)
  have hread : (run ++ behind).takeWhile isMagnitudeChar = run :=
    takeWhile_append_of_head? hrun.isMagnitudeChar hstop
  have hbehind : (run ++ behind).dropWhile isMagnitudeChar = behind :=
    dropWhile_append_of_head? hrun.isMagnitudeChar hstop
  have hunit : behind.dropWhile Text.isBlank = 'p' :: 't' :: after := by
    refine dropWhile_append_of_head? hbetween ?_
    rintro c ⟨⟩
    rfl
  have hblank : after.all Text.isBlank = true := List.all_eq_true.mpr hafter
  rw [htext]
  simp [magnitudeRun?, hbody, hread, hbehind, hunit, hblank, hrun.1]

/-- The run of digits and dots before the unit, of which a text has one at most. -/
theorem magnitudeRun?_eq_some_iff {cs run : List Char} :
    magnitudeRun? cs = some run ↔ IsRun run ∧ Framed run cs :=
  ⟨Framed.of_magnitudeRun?, fun ⟨hrun, h⟩ => h.magnitudeRun?_eq hrun⟩

theorem Framed.points_eq {text : String} {run : List Char} (h : Framed run text.toList)
    (hrun : IsRun run) : points text = magnitude run := by
  rw [points, magnitudeRun?_eq_some_iff.mpr ⟨hrun, h⟩]

/-- A run with its unit is a dimension, whether or not it denotes a number. -/
theorem points_of_isRun {run : List Char} (hrun : IsRun run) :
    points (String.ofList (run ++ ['p', 't'])) = magnitude run := by
  have hframed : Framed run ([] ++ run ++ [] ++ ['p', 't'] ++ []) := .frame nofun nofun nofun
  refine Framed.points_eq ?_ hrun
  simpa using hframed

theorem points_of_not_framed {text : String} (h : ∀ run, IsRun run → ¬ Framed run text.toList) :
    points text = .error (.notDimension text) := by
  have hnone : magnitudeRun? text.toList = none := by
    rw [Option.eq_none_iff_forall_ne_some]
    intro run hread
    obtain ⟨hrun, hframed⟩ := magnitudeRun?_eq_some_iff.mp hread
    exact h run hrun hframed
  rw [points, hnone]

/-! ## What a magnitude denotes -/

/-- Magnitudes are the runs with a digit and one dot at most. -/
theorem denotes_iff {run : List Char} {x : Rat} :
    Denotes run x ↔ IsRun run ∧ IsNumber run ∧ value run = x := by
  constructor
  · intro h
    cases h with
    | whole hne hdenotes =>
        obtain ⟨hdigits, rfl⟩ := Text.denotes_iff.mp hdenotes
        exact ⟨⟨hne, fun c hc => .inr (hdigits c hc)⟩, isNumber_of_digits hne hdigits,
          value_of_not_mem (not_mem_dot hdigits)⟩
    | @places whole places n hne hdenotes =>
        obtain ⟨hdigits, rfl⟩ := Text.denotes_iff.mp hdenotes
        have hwhole : '.' ∉ whole :=
          not_mem_dot fun c hc => hdigits c (List.mem_append_left _ hc)
        have hplaces : '.' ∉ places :=
          not_mem_dot fun c hc => hdigits c (List.mem_append_right _ hc)
        have hchars : ∀ c ∈ whole ++ '.' :: places, c = '.' ∨ Text.isDigit c = true := by
          intro c hc
          rw [List.mem_append, List.mem_cons, or_left_comm, ← List.mem_append] at hc
          exact hc.imp_right (hdigits c)
        exact ⟨⟨by simp, hchars⟩, (isNumber_append_iff hwhole hchars).mpr ⟨hplaces, hne⟩,
          value_append hwhole hplaces⟩
  · rintro ⟨⟨hne, hchars⟩, hnumber, rfl⟩
    rcases cases_dot run with hdot | ⟨whole, places, rfl, hwhole⟩
    · rw [value_of_not_mem hdot]
      exact .whole hne (Text.denotes_iff.mpr ⟨isDigit_of_mem hchars hdot, rfl⟩)
    · obtain ⟨hplaces, hdigits⟩ := (isNumber_append_iff hwhole hchars).mp hnumber
      have hdot : '.' ∉ whole ++ places := by
        rw [List.mem_append]
        exact not_or.mpr ⟨hwhole, hplaces⟩
      have hcharsDigits : ∀ c ∈ whole ++ places, c = '.' ∨ Text.isDigit c = true :=
        fun c hc => hchars c (mem_append_cons_of_mem_append hc)
      rw [value_append hwhole hplaces]
      exact .places hdigits (Text.denotes_iff.mpr ⟨isDigit_of_mem hcharsDigits hdot, rfl⟩)

/-! ## Every text -/

theorem Reads.points_eq {text : String} {result : Except Fault Binary64} (h : Reads text result) :
    points text = result := by
  cases h with
  | number hframed hdenotes hnearest hsign =>
      obtain ⟨hrun, hnumber, rfl⟩ := denotes_iff.mp hdenotes
      obtain ⟨y, hy, hnearest', hsign'⟩ := magnitude_of_isNumber hrun hnumber
      have hsame := hnearest'.eq_of_isNegative_eq hnearest (hsign'.trans hsign.symm)
      rw [hframed.points_eq hrun, hy, hsame]
  | notNumber hframed hrun hnumber =>
      rw [hframed.points_eq hrun, magnitude_of_not_isNumber hrun hnumber]
  | notDimension hframed => exact points_of_not_framed hframed

theorem exists_reads (text : String) : ∃ result, Reads text result := by
  by_cases h : ∃ run, IsRun run ∧ Framed run text.toList
  · obtain ⟨run, hrun, hframed⟩ := h
    by_cases hnumber : IsNumber run
    · obtain ⟨x, -, hnearest, hsign⟩ := magnitude_of_isNumber hrun hnumber
      exact ⟨_, .number hframed (denotes_iff.mpr ⟨hrun, hnumber, rfl⟩) hnearest hsign⟩
    · exact ⟨_, .notNumber hframed hrun hnumber⟩
  · refine ⟨_, .notDimension ?_⟩
    intro run hrun hframed
    exact h ⟨run, hrun, hframed⟩

theorem points_eq_iff_reads {text : String} {result : Except Fault Binary64} :
    points text = result ↔ Reads text result := by
  constructor
  · rintro rfl
    obtain ⟨result, hreads⟩ := exists_reads text
    rwa [hreads.points_eq]
  · exact Reads.points_eq

theorem exists_points_eq_ok_iff {text : String} :
    (∃ x, points text = .ok x) ↔ ∃ run, IsRun run ∧ IsNumber run ∧ Framed run text.toList := by
  constructor
  · rintro ⟨x, hx⟩
    cases points_eq_iff_reads.mp hx with
    | number hframed hdenotes =>
        obtain ⟨hrun, hnumber, -⟩ := denotes_iff.mp hdenotes
        exact ⟨_, hrun, hnumber, hframed⟩
  · rintro ⟨run, hrun, hnumber, hframed⟩
    obtain ⟨x, hx, -⟩ := magnitude_of_isNumber hrun hnumber
    exact ⟨x, (hframed.points_eq hrun).trans hx⟩

theorem unsigned_of_points {text : String} {x : Binary64} (h : points text = .ok x) :
    x ≠ .nan ∧ x.isNegative = false := by
  cases points_eq_iff_reads.mp h with
  | number _ _ hnearest hsign =>
      refine ⟨?_, hsign⟩
      rintro rfl
      cases hnearest

theorem exists_message_iff {text message : String} :
    (∃ cause, points text = .error cause ∧ cause.message = message) ↔
      (∃ run, IsRun run ∧ ¬ IsNumber run ∧ Framed run text.toList ∧
        "could not convert string to float: " ++ Text.quote (String.ofList run) = message) ∨
      (∀ run, IsRun run → ¬ Framed run text.toList) ∧
        "Not a point dimension: " ++ Text.quote text = message := by
  simp only [points_eq_iff_reads]
  constructor
  · rintro ⟨cause, hreads, hmessage⟩
    cases hreads with
    | notNumber hframed hrun hnumber => exact .inl ⟨_, hrun, hnumber, hframed, hmessage⟩
    | notDimension hframed => exact .inr ⟨hframed, hmessage⟩
  · rintro (⟨run, hrun, hnumber, hframed, hmessage⟩ | ⟨hframed, hmessage⟩)
    · exact ⟨_, .notNumber hframed hrun hnumber, hmessage⟩
    · exact ⟨_, .notDimension hframed, hmessage⟩

/-- A text is read exactly when it is a magnitude and its unit with white space around them. The
result is the number nearest to what the magnitude denotes, infinite where that is too large and
never negative, and the white space does not matter to it. Other texts are refused: as no number
where a run of digits and dots stands before the unit, and as no dimension everywhere else. -/
theorem points_by_written_form (text : String) :
    ((∃ x, points text = .ok x) ↔
        ∃ run, IsRun run ∧ IsNumber run ∧ Framed run text.toList) ∧
      (∀ result, points text = result ↔ Reads text result) ∧
      (∀ x, points text = .ok x → x ≠ .nan ∧ x.isNegative = false) ∧
      (∀ run other, IsRun run → Framed run text.toList → Framed run other.toList →
        points other = points text) ∧
      ∀ message, (∃ cause, points text = .error cause ∧ cause.message = message) ↔
        (∃ run, IsRun run ∧ ¬ IsNumber run ∧ Framed run text.toList ∧
          "could not convert string to float: " ++ Text.quote (String.ofList run) = message) ∨
        (∀ run, IsRun run → ¬ Framed run text.toList) ∧
          "Not a point dimension: " ++ Text.quote text = message := by
  refine ⟨exists_points_eq_ok_iff, fun _ => points_eq_iff_reads, fun _ => unsigned_of_points, ?_,
    fun _ => exists_message_iff⟩
  intro run other hrun hframed hframed'
  rw [hframed.points_eq hrun, hframed'.points_eq hrun]

-- Digits of several blocks, and white space of several kinds.
example : points "\t\u0661.\uff15\u3000pt\n" = .ok (.ofRat false (3 / 2)) := by
  decide +kernel

end Galley.Dimension
