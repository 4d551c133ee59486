import Mathlib
import Galley.Proofs.Report.Printing
import Galley.Proofs.Report.Table

/-! # Reading a printed report -/

namespace Galley.Report

open Text (IsWord)

/-! ## The end of a report -/

/-- The table, the sum below it and the total. -/
def closing (report : Report) : List String :=
  header report.nameWidth :: dashes (header report.nameWidth).length ::
    report.images.map (printedRow report.nameWidth) ++
    ["", "Total word count for images: " ++ Text.integer report.imageWords, "",
      "Total word count (words + equations + images)", Text.integer report.total]

theorem printedLines_eq_append {report : Report} (himages : report.images ≠ []) :
    report.printedLines = report.opening ++ report.closing := by
  have hempty : report.images.isEmpty = false := by simpa using himages
  simp [printedLines, printedImages, closing, hempty]

theorem header_columns (report : Report) :
    StartsAt (header report.nameWidth).toList (report.nameWidth + 2) ratioHeader.toList ∧
      StartsAt (header report.nameWidth).toList (report.nameWidth + 17) wordsHeader.toList ∧
      StartsAt (header report.nameWidth).toList (report.nameWidth + 35) columnsHeader.toList := by
  have haligned := aligned_row
    (header_length_le_columnWidth (report.images.map (·.fileName)) fileNameHeader) ratioHeader
    wordsHeader columnsHeader
  exact ⟨haligned.ratio_at, haligned.words_at (by decide),
    haligned.columns_at (by decide) (by decide)⟩

theorem isWord_answer (twoColumn : Bool) : IsWord (if twoColumn then "yes" else "no").toList := by
  revert twoColumn
  decide

/-! ## Lines -/

section Lines

variable {report : Report} (hnames : ∀ image ∈ report.images, IsWord image.fileName.toList)
include hnames

theorem newline_not_mem_closing :
    ∀ line ∈ report.closing.map String.toList, '\n' ∉ line := by
  have hinteger : ∀ n, '\n' ∉ (Text.integer n).toList := by
    intro n
    rw [Text.integer, String.toList_ofList]
    exact (Text.isWord_integerChars n).not_mem rfl
  have hrows : ∀ image ∈ report.images,
      '\n' ∉ (printedRow report.nameWidth image).toList := fun image himage =>
    newline_not_mem_row ((hnames image himage).not_mem rfl)
      ((Binary64.isWord_toText image.aspectRatio).not_mem rfl) (hinteger image.words)
      ((isWord_answer image.twoColumn).not_mem rfl) _
  have hheader : '\n' ∉ (header report.nameWidth).toList :=
    newline_not_mem_row (by simp [fileNameHeader]) (by simp [ratioHeader])
      (by simp [wordsHeader]) (by simp [columnsHeader]) _
  simp only [closing, dashes, List.map_cons, List.map_append, List.map_map, List.map_nil,
    List.forall_mem_append, List.forall_mem_cons, List.forall_mem_map]
  refine ⟨⟨hheader, by simp [List.mem_replicate], hrows⟩, by simp, by simp [hinteger], by simp,
    by simp, hinteger _, by simp⟩

theorem lines_text (h : report.Writable) (himages : report.images ≠ []) :
    ∃ text front, report.text = .ok text ∧
      Text.lines text.toList = front ++ report.closing.map String.toList := by
  have hne : (report.opening ++ report.closing).map String.toList ≠ [] := by simp [opening]
  refine ⟨_, (report.opening.map String.toList).flatMap (·.splitOn '\n'), h.text_eq, ?_⟩
  rw [printedLines_eq_append himages, String.toList_append, String.toList_intercalate]
  change Text.lines (['\n'].intercalate _ ++ ['\n']) = _
  rw [Text.intercalate_append_newline hne, Text.lines_flatMap, List.map_append,
    List.flatMap_append, Text.flatMap_splitOn_eq_self (newline_not_mem_closing hnames)]

end Lines

/-! ## Rows -/

/-- The number in the third field of a row. -/
def readWords? (row : List Char) : Option Int :=
  (Text.words row)[2]?.bind fun field => Text.integer? (String.ofList field)

/-- A line that shows an image: its fields and no others, each in its column. -/
structure Shows (width : Nat) (image : Estimate) (line : List Char) : Prop where
  fields : Text.words line = [image.fileName.toList, image.aspectRatio.toText.toList,
    Text.integerChars image.words,
    (if image.columnMode = .double then "yes" else "no").toList]
  read_words : readWords? line = some image.words
  aligned : Aligned width image.aspectRatio.toText.toList (Text.integerChars image.words)
    (if image.columnMode = .double then "yes" else "no").toList line

theorem printedRow_shows {width : Nat} {image : Estimate} (hname : IsWord image.fileName.toList)
    (hwidth : image.fileName.length ≤ width) :
    Shows width image (printedRow width image).toList := by
  have hcount : (Text.integer image.words).toList = Text.integerChars image.words := by
    rw [Text.integer, String.toList_ofList]
  have hanswer : (if image.twoColumn then "yes" else "no") =
      if image.columnMode = .double then "yes" else "no" := by
    simp [Estimate.twoColumn]
  have hfields := words_row hname (Binary64.isWord_toText image.aspectRatio)
    (hcount ▸ Text.isWord_integerChars image.words) (isWord_answer image.twoColumn) width
  have haligned := aligned_row hwidth image.aspectRatio.toText (Text.integer image.words)
    (if image.twoColumn then "yes" else "no")
  rw [hcount, hanswer] at hfields haligned
  rw [printedRow, hanswer]
  refine ⟨hfields, ?_, haligned⟩
  rw [readWords?, hfields]
  simp only [List.getElem?_cons_succ, List.getElem?_cons_zero, Option.bind_some]
  exact Text.integer?_integer image.words

/-! ## Reading it back -/

/-- A text ends in the table of a report, the sum of the words in it and the total. -/
structure EndsInTable (report : Report) (width : Nat) (rows : List (List Char)) (text : String) :
    Prop where
  lines_eq : ∃ front, Text.lines text.toList =
    front ++ (header width).toList :: List.replicate (header width).length '-' :: rows ++
      [[], "Total word count for images: ".toList ++
          Text.integerChars (report.images.map (·.words)).sum,
        [], "Total word count (words + equations + images)".toList,
        Text.integerChars (report.textWords +
          report.guide.wordsPerEquationLine * report.mathLines +
          (report.images.map (·.words)).sum)]
  header_columns : StartsAt (header width).toList (width + 2) ratioHeader.toList ∧
    StartsAt (header width).toList (width + 17) wordsHeader.toList ∧
    StartsAt (header width).toList (width + 35) columnsHeader.toList
  rows_show : List.Forall₂ (Shows width) report.images rows

/-- Whatever the word counter has written, the report on images whose names are words ends in a
table with one row per image, from which the images and their words can be read back. -/
theorem text_endsInTable {report : Report} (himages : report.images ≠ [])
    (hnames : ∀ image ∈ report.images, IsWord image.fileName.toList) (h : report.Writable) :
    ∃ text rows, report.text = .ok text ∧ EndsInTable report
      ((report.images.map (·.fileName.length)).foldr max 9) rows text := by
  have hwidth : report.nameWidth = (report.images.map (·.fileName.length)).foldr max 9 := by
    rw [nameWidth, columnWidth_eq, List.map_map]
    rfl
  obtain ⟨text, front, htext, hfront⟩ := lines_text hnames h himages
  have hrows : ∀ image ∈ report.images, Shows report.nameWidth image
      (printedRow report.nameWidth image).toList := fun image himage =>
    printedRow_shows (hnames image himage)
      (length_le_columnWidth (List.mem_map_of_mem himage) fileNameHeader)
  refine ⟨text, report.images.map fun image => (printedRow report.nameWidth image).toList, htext,
    ?_⟩
  rw [← hwidth]
  refine ⟨?_, report.header_columns, ?_⟩
  · refine ⟨front, ?_⟩
    rw [hfront, closing, imageWords_eq_sum, total, imageWords_eq_sum]
    simp [dashes, Text.integer, equationWords]
  · rw [List.forall₂_map_right_iff, List.forall₂_same]
    exact hrows

/-- The output of the word counter looks like the end of a report. -/
def lookalike : Report where
  counterOutput := "File name  Aspect ratio\n---\nfig.pdf  1.5  7  no\n\n" ++
    "Total word count for images: 7\n\nTotal word count (words + equations + images)\n7\n"
  textWords := 10
  mathLines := 2
  images := [⟨"fig1.pdf", .ofDecimal ⟨false, 15, -1⟩, 120, .single⟩,
    ⟨"plots/long_name.png", .ofDecimal ⟨false, 3, 0⟩, 240, .double⟩]

theorem lookalike_endsInTable :
    lookalike.images ≠ [] ∧ (∀ image ∈ lookalike.images, IsWord image.fileName.toList) ∧
      lookalike.Writable ∧
      ∃ text rows, lookalike.text = .ok text ∧ EndsInTable lookalike 19 rows text := by
  have himages : lookalike.images ≠ [] := List.cons_ne_nil _ _
  have hnames : ∀ image ∈ lookalike.images, IsWord image.fileName.toList := by decide
  have hwritable : lookalike.Writable :=
    ⟨by decide +kernel, by decide +kernel, by decide +kernel, by decide +kernel⟩
  exact ⟨himages, hnames, hwritable, text_endsInTable himages hnames hwritable⟩

end Galley.Report
