import Mathlib
import Galley.CompileLog
import Galley.Proofs.CompileLog.Grammar
import Galley.Proofs.Decimal.Numeral
import Galley.Proofs.Document.Chunk

/-! # Written logs

A log is put together from lines that name a graphic, lines that give a size, and lines that do
neither.
-/

namespace Galley.CompileLog

/-- A line of a log. The name of a graphic may hold anything that does not end it, another opening
mark included. -/
inductive Line where
  | use (name : String) (ends : ∀ c ∈ name.toList, c ≠ '>' ∧ c ≠ '\n')
      (no_size : ¬ sizeMark.toList <:+: name.toList)
  | size (blanks : List Char) (blank : ∀ c ∈ blanks, Text.isBlank c = true ∧ c ≠ '\n')
      (width height : Numeral)
  | noise (text : List Char) (no_feed : '\n' ∉ text) (no_use : ¬ useMark.toList <:+: text)
      (no_size : ¬ sizeMark.toList <:+: text)

def driverMark : String := "(pdftex.def)"

/-- The written form of a requested size, up to the unit of the height. -/
def printSize (width height : Numeral) : List Char :=
  sizeMark.toList ++ ' ' :: (width.chars ++ "pt x ".toList ++ height.chars ++ "pt".toList)

def Line.chars : Line → List Char
  | .use name _ _ => useMark.toList ++ name.toList ++ ['>', '\n']
  | .size blanks _ width height =>
    driverMark.toList ++ blanks ++ printSize width height ++ ['.', '\n']
  | .noise text _ _ _ => text ++ ['\n']

def Line.name? : Line → Option String
  | .use name _ _ => some name
  | _ => none

def Line.size? : Line → Option (Numeral × Numeral)
  | .size _ _ width height => some (width, height)
  | _ => none

def print (lines : List Line) : String :=
  String.ofList (lines.flatMap Line.chars)

/-! ## Names -/

theorem isPrefixOf?_eq_none {mark cs : List Char} (h : ¬ mark <+: cs) :
    mark.isPrefixOf? cs = none := by
  rw [Option.eq_none_iff_forall_ne_some]
  intro rest hrest
  exact h ⟨rest, List.isPrefixOf?_eq_some_iff_append_eq.mp hrest⟩

theorem readUse_eq_none (cs : List Char) (h : ¬ useMark.toList <+: cs) : readUse cs = none := by
  simp [readUse, isPrefixOf?_eq_none h]

theorem not_mem_chars_of_not_magnitude {c : Char} (h : Dimension.isMagnitudeChar c = false)
    (numeral : Numeral) : c ∉ numeral.chars := by
  intro hmem
  rw [Numeral.isMagnitudeChar_of_mem hmem] at h
  cases h

theorem names_worksOff (line : Line) :
    WorksOff (readings readUse) line.chars line.name?.toList := by
  cases line with
  | use name ends no_size =>
      have hread : ∀ rest : List Char, readUse (useMark.toList ++ name.toList ++ ['>'] ++ rest) =
          some (name, (useMark.toList ++ name.toList ++ ['>']).length) := by
        intro rest
        rw [readUse_append ends rest, String.ofList_toList]
      have hname : WorksOff (readings readUse) (useMark.toList ++ name.toList ++ ['>']) [name] :=
        WorksOff.reading (by simp) hread
      have hfeed : WorksOff (readings readUse) ['\n'] [] :=
        WorksOff.no_reading_of_head rfl (by decide) readUse_eq_none
      have hline := hname.append hfeed
      rw [List.append_assoc] at hline
      exact hline
  | size blanks blank width height =>
      have hblanks : '<' ∉ blanks := fun hmem => absurd (blank _ hmem).1 (by decide)
      have hnumeral := not_mem_chars_of_not_magnitude (c := '<') (by decide)
      have hline : '<' ∉ Line.chars (.size blanks blank width height) := by
        rw [Line.chars, printSize]
        simp only [List.mem_append, List.mem_cons, not_or]
        exact ⟨⟨⟨by decide, hblanks⟩, by decide, by decide,
          ⟨⟨hnumeral width, by decide⟩, hnumeral height⟩, by decide⟩, by decide⟩
      exact WorksOff.no_reading_of_head rfl hline readUse_eq_none
  | noise text no_feed no_use no_size =>
      exact WorksOff.no_reading_of_not_infix (by decide) no_use readUse_eq_none

/-! ## Sizes -/

theorem readSize_eq_none (cs : List Char) (h : ¬ sizeMark.toList <+: cs) : readSize cs = none := by
  simp [readSize, isPrefixOf?_eq_none h]

theorem sizeForm_printSize (width height : Numeral) :
    SizeForm (printSize width height) (width.chars, height.chars) := by
  have hrun : ∀ numeral : Numeral, Dimension.IsRun numeral.chars := fun numeral =>
    ⟨numeral.chars_ne_nil, fun c hc =>
      (Dimension.isMagnitudeChar_iff c).mp (Numeral.isMagnitudeChar_of_mem hc)⟩
  have hspace : Text.isBlank ' ' = true := rfl
  have hform : SizeForm _ (width.chars, height.chars) :=
    .size hspace hspace hspace (hrun width) (hrun height)
  have hchars : printSize width height = sizeMark.toList ++ ' ' :: (width.chars ++ 'p' :: 't' ::
      ' ' :: 'x' :: ' ' :: (height.chars ++ ['p', 't'])) := by
    simp [printSize]
  rw [hchars]
  exact hform

theorem sizes_worksOff (line : Line) :
    WorksOff (readings readSize) line.chars
      (line.size?.map fun size => (size.1.chars, size.2.chars)).toList := by
  cases line with
  | use name ends no_size =>
      have hmark : WorksOff (readings readSize) useMark.toList [] :=
        WorksOff.no_reading_of_head rfl (by decide) readSize_eq_none
      have hname : WorksOff (readings readSize) (name.toList ++ ['>']) [] :=
        WorksOff.no_reading_of_not_infix (by decide) no_size readSize_eq_none
      have hfeed : WorksOff (readings readSize) ['\n'] [] :=
        WorksOff.no_reading_of_head rfl (by decide) readSize_eq_none
      have hline := hmark.append (hname.append hfeed)
      rw [List.append_assoc, ← List.append_assoc] at hline
      exact hline
  | size blanks blank width height =>
      have hfront : WorksOff (readings readSize) (driverMark.toList ++ blanks) [] := by
        refine WorksOff.no_reading_of_head rfl ?_ readSize_eq_none
        intro hmem
        rcases List.mem_append.mp hmem with hmem | hmem
        · revert hmem
          decide
        · have hblank := (blank _ hmem).1
          revert hblank
          decide
      have hsize : WorksOff (readings readSize) (printSize width height)
          [(width.chars, height.chars)] :=
        WorksOff.reading (by simp [printSize]) (sizeForm_printSize width height).read
      have hstop : WorksOff (readings readSize) ['.', '\n'] [] :=
        WorksOff.no_reading_of_head rfl (by decide) readSize_eq_none
      exact (hfront.append hsize).append hstop
  | noise text no_feed no_use no_size =>
      exact WorksOff.no_reading_of_not_infix (by decide) no_size readSize_eq_none

/-! ## Images -/

def names (lines : List Line) : List String :=
  lines.filterMap Line.name?

def requestedSizes (lines : List Line) : List (Numeral × Numeral) :=
  lines.filterMap Line.size?

/-- The image that a name and a size stand for, with the numbers nearest to the written ones. -/
def placed (name : String) (size : Numeral × Numeral) : Image :=
  ⟨name, .ofRat false size.1.value, .ofRat false size.2.value⟩

theorem fileNames_print (lines : List Line) : fileNames (print lines) = names lines := by
  have hall : WorksOff (readings readUse) (lines.flatMap Line.chars)
      (lines.flatMap fun line => line.name?.toList) :=
    WorksOff.flatMap fun line _ => names_worksOff line
  rw [fileNames, print, String.toList_ofList, hall.eq rfl, names, List.filterMap_eq_flatMap_toList]

theorem readings_readSize_print (lines : List Line) :
    readings readSize (print lines).toList =
      (requestedSizes lines).map fun size => (size.1.chars, size.2.chars) := by
  have hall : WorksOff (readings readSize) (lines.flatMap Line.chars)
      (lines.flatMap fun line =>
        (line.size?.map fun size => (size.1.chars, size.2.chars)).toList) :=
    WorksOff.flatMap fun line _ => sizes_worksOff line
  rw [print, String.toList_ofList, hall.eq rfl, requestedSizes, List.map_filterMap,
    List.filterMap_eq_flatMap_toList]

theorem sizes_print (lines : List Line) :
    sizes (print lines) = .ok ((requestedSizes lines).map fun size =>
      (.ofRat false size.1.value, .ofRat false size.2.value)) := by
  rw [sizes, readings_readSize_print]
  induction requestedSizes lines with
  | nil => rfl
  | cons size rest ih =>
      rw [List.map_cons, List.mapM_cons, ih]
      simp only [Numeral.magnitude_chars]
      rfl

/-- Reading a printed log gives back what was written, however the lines are mixed: as many images
as there are names, the `i`-th of them with the `i`-th name and the `i`-th size. It fails exactly
when there are fewer sizes than names. -/
theorem images_print (lines : List Line) :
    ((requestedSizes lines).length < (names lines).length ∧
        images (print lines) =
          .error (.missingSizes (names lines).length (requestedSizes lines).length)) ∨
      ∃ found, images (print lines) = .ok found ∧
        found = List.zipWith placed (names lines) (requestedSizes lines) ∧
        found.length = (names lines).length := by
  have himages : images (print lines) =
      if (requestedSizes lines).length < (names lines).length then
        .error (.missingSizes (names lines).length (requestedSizes lines).length)
      else .ok (List.zipWith placed (names lines) (requestedSizes lines)) := by
    simp only [images, fileNames_print, sizes_print, List.length_map, List.zip_map_right,
      List.map_zip_eq_zipWith, List.map_zipWith]
    rfl
  by_cases hfew : (requestedSizes lines).length < (names lines).length
  · left
    exact ⟨hfew, by rw [himages, if_pos hfew]⟩
  · right
    refine ⟨_, by rw [himages, if_neg hfew], rfl, ?_⟩
    rw [List.length_zipWith]
    omega

end Galley.CompileLog
