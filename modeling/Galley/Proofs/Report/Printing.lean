import Mathlib
import Galley.Proofs.Failure
import Galley.Report.Layout

/-! # Which reports can be written -/

namespace Galley.Report

/-- The least natural number with too many digits to be written. -/
def writtenBound : Nat := 10 ^ Text.digitLimit

theorem natChars_length_le_iff (n : Nat) :
    (Text.natChars n).length ≤ Text.digitLimit ↔ n < writtenBound :=
  Nat.length_toDigits_le_iff (by decide) (by decide)

theorem integer_of_natAbs_lt {n : Int} (h : n.natAbs < writtenBound) :
    integer n = .ok (Text.integer n) := by
  rw [integer, if_neg (not_lt.mpr ((natChars_length_le_iff n.natAbs).mpr h))]

theorem integer_of_le {n : Int} (h : writtenBound ≤ n) :
    integer n = .error .tooManyDigitsWritten := by
  obtain ⟨m, rfl⟩ := Int.eq_ofNat_of_zero_le (le_trans (Int.natCast_nonneg _) h)
  have hlength := mt (natChars_length_le_iff m).mp (not_lt.mpr (by exact_mod_cast h))
  rw [integer, Int.natAbs_natCast, if_pos (not_le.mp hlength)]

theorem integer_failsWith (n : Int) : FailsWith (· = .tooManyDigitsWritten) (integer n) := by
  unfold integer
  split
  · exact FailsWith.error rfl
  · exact .ok _

theorem imageLines_failsWith (report : Report) :
    FailsWith (· = .tooManyDigitsWritten) report.imageLines := by
  unfold imageLines
  split
  · exact .ok _
  · refine .bind (.mapM (fun image => ?_) _) fun rows => .bind (integer_failsWith _) fun _ => .ok _
    exact .bind (integer_failsWith _) fun words => .ok _

theorem text_failsWith (report : Report) :
    FailsWith (· = .tooManyDigitsWritten) report.text :=
  .bind (.bind (integer_failsWith _) fun _ => .bind report.imageLines_failsWith fun _ =>
    .bind (integer_failsWith _) fun _ => .ok _) fun _ => .ok _

theorem text_of_le_total {report : Report} (h : writtenBound ≤ report.total) :
    report.text = .error .tooManyDigitsWritten := by
  cases htext : report.text with
  | error fault => rw [report.text_failsWith fault htext]
  | ok text =>
      obtain ⟨_, hlines, -⟩ := exists_of_bind_eq_ok htext
      obtain ⟨_, -, hrest⟩ := exists_of_bind_eq_ok hlines
      obtain ⟨_, -, hrest⟩ := exists_of_bind_eq_ok hrest
      obtain ⟨_, htotal, -⟩ := exists_of_bind_eq_ok hrest
      rw [integer_of_le h] at htotal
      cases htotal

theorem imageWords_eq_sum (report : Report) :
    report.imageWords = (report.images.map (·.words)).sum := by
  rw [imageWords, List.sum, List.foldr_map]

/-! ## Texts -/

def nameWidth (report : Report) : Nat :=
  columnWidth (report.images.map (·.fileName)) fileNameHeader

def header (width : Nat) : String :=
  row width fileNameHeader ratioHeader wordsHeader columnsHeader

/-- The row of an image whose words can be written. -/
def printedRow (width : Nat) (image : Estimate) : String :=
  row width image.fileName image.aspectRatio.toText (Text.integer image.words)
    (if image.twoColumn then "yes" else "no")

/-- The lines in front of the images. -/
def opening (report : Report) : List String :=
  ["", underline "Words in text, headers and equations", dropFinalNewlines report.counterOutput,
    "Number of displayed math lines: " ++ Text.integer report.mathLines, "", underline "Images"]

def printedImages (report : Report) : List String :=
  if report.images.isEmpty then ["The file doesn't contain images."]
  else
    header report.nameWidth :: dashes (header report.nameWidth).length ::
      report.images.map (printedRow report.nameWidth) ++
      ["", "Total word count for images: " ++ Text.integer report.imageWords]

/-- The lines of a report whose integers can be written. -/
def printedLines (report : Report) : List String :=
  report.opening ++ report.printedImages ++
    ["", "Total word count (words + equations + images)", Text.integer report.total]

/-- No integer of a report has too many digits to be written. -/
structure Writable (report : Report) : Prop where
  mathLines : report.mathLines.natAbs < writtenBound
  images : ∀ image ∈ report.images, image.words.natAbs < writtenBound
  imageWords : report.imageWords.natAbs < writtenBound
  total : report.total.natAbs < writtenBound

namespace Writable

variable {report : Report} (h : report.Writable)
include h

theorem mapM_imageRow (width : Nat) :
    report.images.mapM (imageRow width) = .ok (report.images.map (printedRow width)) := by
  have hrow : ∀ image ∈ report.images,
      imageRow width image = pure (printedRow width image) := by
    intro image himage
    rw [imageRow, integer_of_natAbs_lt (h.images image himage)]
    rfl
  rw [mapM_congr hrow, List.mapM_pure]
  rfl

theorem imageLines_eq : report.imageLines = .ok report.printedImages := by
  unfold imageLines printedImages
  split
  · rfl
  · simp only [h.mapM_imageRow, integer_of_natAbs_lt h.imageWords]
    rfl

theorem text_eq : report.text = .ok ("\n".intercalate report.printedLines ++ "\n") := by
  rw [text, lines, integer_of_natAbs_lt h.mathLines, h.imageLines_eq,
    integer_of_natAbs_lt h.total]
  rfl

end Writable

/-! ## Counts that are natural numbers -/

/-- A report in which every count is a natural number and a displayed line costs something. -/
structure Counts (report : Report) : Prop where
  textWords : 0 ≤ report.textWords
  mathLines : 0 ≤ report.mathLines
  images : ∀ image ∈ report.images, 0 ≤ image.words
  line : 1 ≤ report.guide.wordsPerEquationLine

namespace Counts

variable {report : Report} (h : report.Counts)
include h

theorem imageWords_nonneg : 0 ≤ report.imageWords := by
  rw [imageWords_eq_sum]
  exact List.sum_nonneg (by simpa using h.images)

theorem words_le_imageWords {image : Estimate} (himage : image ∈ report.images) :
    image.words ≤ report.imageWords := by
  rw [imageWords_eq_sum]
  exact List.single_le_sum (by simpa using h.images) _ (List.mem_map_of_mem himage)

theorem mathLines_le_equationWords : report.mathLines ≤ report.equationWords := by
  rw [equationWords]
  nlinarith [h.mathLines, h.line]

theorem writable (hlt : report.total < writtenBound) : report.Writable := by
  have hwords := h.textWords
  have himages := h.imageWords_nonneg
  have hlines := h.mathLines
  have hequations := h.mathLines_le_equationWords
  have htotal : report.total = report.textWords + report.equationWords + report.imageWords := rfl
  refine ⟨by omega, fun image himage => ?_, by omega, by omega⟩
  have hnonneg := h.images image himage
  have hle := h.words_le_imageWords himage
  omega

theorem exists_text (hlt : report.total < writtenBound) : ∃ text, report.text = .ok text :=
  ⟨_, (h.writable hlt).text_eq⟩

end Counts

end Galley.Report
