import Mathlib
import Galley.Proofs.CompileLog.Grammar
import Galley.Proofs.CompileLog.Sizes
import Galley.Proofs.Dimension.Grammar

/-!
# What becomes of a log

Every written size is read, whether or not a name belongs to it, and the first run that denotes no
number ends the reading. Otherwise the sizes have to suffice for the names.
-/

namespace Galley.CompileLog

open Dimension (IsNumber IsRun)

/-! ## One size -/

/-- The first run of a written size that denotes no number, the width before the height. -/
def malformed? (size : List Char × List Char) : Option (List Char) :=
  if ¬ IsNumber size.1 then some size.1
  else if ¬ IsNumber size.2 then some size.2
  else none

theorem malformed?_eq_none_iff {size : List Char × List Char} :
    malformed? size = none ↔ IsNumber size.1 ∧ IsNumber size.2 := by
  rw [malformed?]
  split_ifs <;> simp_all

section Runs

variable {size : List Char × List Char} (hruns : IsRun size.1 ∧ IsRun size.2)
include hruns

theorem readNumbers_eq_error_iff {cause : Fault} :
    readNumbers size = .error cause ↔
      (malformed? size).map (fun run => .notNumber (String.ofList run)) = some cause := by
  obtain ⟨hwidth, hheight⟩ := hruns
  by_cases hx : IsNumber size.1
  · obtain ⟨x, hmagnitude, -⟩ := Dimension.magnitude_of_isNumber hwidth hx
    have hread : readNumbers size = (Dimension.magnitude size.2).map (x, ·) := by
      rw [readNumbers, hmagnitude]
      rfl
    have herror : readNumbers size = .error cause ↔ Dimension.magnitude size.2 = .error cause := by
      rw [hread]
      cases Dimension.magnitude size.2 <;> simp [Except.map]
    rw [herror, Dimension.magnitude_eq_error_iff hheight]
    by_cases hy : IsNumber size.2
    · simp [malformed?, hx, hy]
    · simp [malformed?, hx, hy, eq_comm]
  · have hread : readNumbers size = .error (.notNumber (String.ofList size.1)) := by
      rw [readNumbers, Dimension.magnitude_of_not_isNumber hwidth hx]
      rfl
    rw [hread]
    simp [malformed?, hx]

theorem readNumbers_eq_points :
    readNumbers size = do
      let width ← Dimension.points (String.ofList (size.1 ++ ['p', 't']))
      let height ← Dimension.points (String.ofList (size.2 ++ ['p', 't']))
      return (width, height) := by
  rw [Dimension.points_of_isRun hruns.1, Dimension.points_of_isRun hruns.2]
  rfl

end Runs

/-! ## All sizes -/

theorem SizeForm.isRun {written : List Char} {size : List Char × List Char}
    (h : SizeForm written size) : IsRun size.1 ∧ IsRun size.2 := by
  obtain ⟨-, -, -, hwidth, hheight⟩ := h
  exact ⟨hwidth, hheight⟩

theorem exists_malformed_iff {written : List (List Char × List Char)} :
    (∃ size ∈ written, ¬ IsNumber size.1 ∨ ¬ IsNumber size.2) ↔
      written.findSome? malformed? ≠ none := by
  simp only [ne_eq, List.findSome?_eq_none_iff, malformed?_eq_none_iff, not_forall, not_and_or,
    exists_prop]

section Log

variable {log : String}

theorem isRun_of_mem_writtenSizes :
    ∀ size ∈ writtenSizes log, IsRun size.1 ∧ IsRun size.2 := by
  intro size hsize
  obtain ⟨occurrence, hmem, rfl⟩ := List.mem_map.mp hsize
  obtain ⟨written, hform, -⟩ :=
    (leftmost_occurrences readSize_decides log.toList).stands occurrence hmem
  exact hform.isRun

theorem sizes_eq_error_iff {cause : Fault} :
    sizes log = .error cause ↔ ∃ run, (writtenSizes log).findSome? malformed? = some run ∧
      .notNumber (String.ofList run) = cause := by
  rw [sizes_eq, mapM_eq_error_iff_findSome? fun size hsize _ =>
    readNumbers_eq_error_iff (isRun_of_mem_writtenSizes size hsize), ← Option.map_eq_some_iff,
    List.map_findSome?]
  rfl

theorem exists_sizes_eq_ok_iff :
    (∃ sized, sizes log = .ok sized) ↔ (writtenSizes log).findSome? malformed? = none := by
  cases hsizes : sizes log with
  | ok sized =>
      rw [Option.eq_none_iff_forall_ne_some]
      refine iff_of_true ⟨sized, rfl⟩ ?_
      intro run hrun
      cases hsizes.symm.trans (sizes_eq_error_iff.mpr ⟨run, hrun, rfl⟩)
  | error cause =>
      obtain ⟨run, hrun, -⟩ := sizes_eq_error_iff.mp hsizes
      simp [hrun]

/-- Each written size is read as two dimensions with their units. -/
theorem sizes_eq_points :
    sizes log = (writtenSizes log).mapM fun size => do
      let width ← Dimension.points (String.ofList (size.1 ++ ['p', 't']))
      let height ← Dimension.points (String.ofList (size.2 ++ ['p', 't']))
      return (width, height) := by
  rw [sizes_eq]
  exact mapM_congr fun size hsize => readNumbers_eq_points (isRun_of_mem_writtenSizes size hsize)

end Log

/-! ## Images -/

/-- The image has the name, and its sides are the numbers nearest to the written ones. -/
structure Shows (image : Image) (name : String) (size : List Char × List Char) : Prop where
  name : image.fileName = name
  width : Binary64.NearestTo (Dimension.value size.1) image.width ∧ image.width.isNegative = false
  height :
    Binary64.NearestTo (Dimension.value size.2) image.height ∧ image.height.isNegative = false

/-- What becomes of a log with these names and written sizes. -/
structure ReadsAs (log : String) (names : List String) (written : List (List Char × List Char)) :
    Prop where
  fails_iff : (∃ cause, images log = .error cause) ↔
    (∃ size ∈ written, ¬ IsNumber size.1 ∨ ¬ IsNumber size.2) ∨ written.length < names.length
  error_iff : ∀ cause, images log = .error cause ↔
    (∃ run, written.findSome? malformed? = some run ∧
      cause = .malformedSize (.notNumber (String.ofList run))) ∨
    (written.findSome? malformed? = none ∧ written.length < names.length ∧
      cause = .missingSizes names.length written.length)
  as_points : sizes log = written.mapM fun size => do
    let width ← Dimension.points (String.ofList (size.1 ++ ['p', 't']))
    let height ← Dimension.points (String.ofList (size.2 ++ ['p', 't']))
    return (width, height)
  count : ∀ found, images log = .ok found → found.length = names.length
  shows : ∀ found, images log = .ok found → ∀ (i : Nat) image, found[i]? = some image →
    ∃ name size, names[i]? = some name ∧ written[i]? = some size ∧ Shows image name size

section Log

variable {log : String}

theorem images_eq_error_iff_written {cause : Mismatch} :
    images log = .error cause ↔
      (∃ run, (writtenSizes log).findSome? malformed? = some run ∧
        cause = .malformedSize (.notNumber (String.ofList run))) ∨
      ((writtenSizes log).findSome? malformed? = none ∧
        (writtenSizes log).length < (fileNames log).length ∧
        cause = .missingSizes (fileNames log).length (writtenSizes log).length) := by
  rw [images_eq_error_iff]
  refine or_congr ?_ ?_
  · constructor
    · rintro ⟨fault, hfault, rfl⟩
      obtain ⟨run, hrun, rfl⟩ := sizes_eq_error_iff.mp hfault
      exact ⟨run, hrun, rfl⟩
    · rintro ⟨run, hrun, rfl⟩
      exact ⟨_, sizes_eq_error_iff.mpr ⟨run, hrun, rfl⟩, rfl⟩
  · constructor
    · rintro ⟨sized, hsizes, hlt, rfl⟩
      rw [length_of_sizes_eq_ok hsizes] at hlt ⊢
      exact ⟨exists_sizes_eq_ok_iff.mp ⟨sized, hsizes⟩, hlt, rfl⟩
    · rintro ⟨hnone, hlt, rfl⟩
      obtain ⟨sized, hsizes⟩ := exists_sizes_eq_ok_iff.mpr hnone
      rw [← length_of_sizes_eq_ok hsizes] at hlt ⊢
      exact ⟨sized, hsizes, hlt, rfl⟩

theorem exists_images_eq_error_iff :
    (∃ cause, images log = .error cause) ↔
      (∃ size ∈ writtenSizes log, ¬ IsNumber size.1 ∨ ¬ IsNumber size.2) ∨
        (writtenSizes log).length < (fileNames log).length := by
  simp only [images_eq_error_iff_written, exists_malformed_iff]
  cases hfirst : (writtenSizes log).findSome? malformed? with
  | some run => simp
  | none => simp

theorem shows_of_images_eq_ok {found : List Image} (h : images log = .ok found) {i : Nat}
    {image : Image} (hi : found[i]? = some image) :
    ∃ name size, (fileNames log)[i]? = some name ∧ (writtenSizes log)[i]? = some size ∧
      Shows image name size := by
  obtain ⟨hname, sized, hsizes, hsize⟩ := (getElem?_images h i image).mp hi
  obtain ⟨size, hwritten, hread⟩ := getElem?_of_mapM_eq_ok (sizes_eq log ▸ hsizes) hsize
  obtain ⟨hwidth, hheight⟩ := of_readNumbers_eq_ok hread
  obtain ⟨hrun, hrun'⟩ := isRun_of_mem_writtenSizes size (List.mem_of_getElem? hwritten)
  refine ⟨image.fileName, size, hname, hwritten, rfl, ?_, ?_⟩
  · exact (Dimension.nearestTo_of_magnitude hrun hwidth).2
  · exact (Dimension.nearestTo_of_magnitude hrun' hheight).2

end Log

/-- The leftmost names and sizes of a log, which are unique, decide what becomes of it. -/
theorem images_of_leftmost (log : String) :
    ∃ names sizes,
      (∀ found, Leftmost UseForm log.toList 0 found ↔ found = names) ∧
      (∀ found, Leftmost SizeForm log.toList 0 found ↔ found = sizes) ∧
      ReadsAs log (names.map (·.value)) (sizes.map (·.value)) := by
  refine ⟨occurrences readUse log.toList, occurrences readSize log.toList,
    leftmost_iff readUse_decides log.toList, leftmost_iff readSize_decides log.toList, ?_⟩
  exact {
    fails_iff := exists_images_eq_error_iff
    error_iff := fun _ => images_eq_error_iff_written
    as_points := sizes_eq_points
    count := fun _ hfound => length_images hfound
    shows := fun _ hfound _ _ hi => shows_of_images_eq_ok hfound hi }

-- A size is read even where no name belongs to it.
example : images "Requested size: 1..5pt x 2pt" = .error (.malformedSize (.notNumber "1..5")) := by
  decide +kernel

end Galley.CompileLog
