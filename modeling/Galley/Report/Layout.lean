import Galley.Report.Basic

/-!
# The text of a report

The output of the word counter, the number of displayed lines, a table with one row per image,
and the total. Columns are filled up with spaces and never cut.
-/

namespace Galley.Report

def fileNameHeader : String := "File name"

def ratioHeader : String := "Aspect ratio"

def wordsHeader : String := "Est. word count"

def columnsHeader : String := "Two-column"

/-- The width that fits a header and every value below it. -/
def columnWidth (values : List String) (header : String) : Nat :=
  values.foldl (fun width value => max width value.length) header.length

/-- A text filled up with spaces to a width. -/
def pad (width : Nat) (text : String) : String :=
  text ++ String.ofList (List.replicate (width - text.length) ' ')

def dashes (n : Nat) : String :=
  String.ofList (List.replicate n '-')

/-- A title over a line of dashes of the same length. -/
def underline (title : String) : String :=
  title ++ "\n" ++ dashes title.length

/-- An integer in decimal digits, of which there may not be too many. -/
def integer (n : Int) : Except Fault String :=
  if Text.digitLimit < (Text.natChars n.natAbs).length then .error .tooManyDigitsWritten
  else .ok (Text.integer n)

def row (width : Nat) (name ratio words columns : String) : String :=
  pad width name ++ "  " ++ pad 13 ratio ++ "  " ++ pad 16 words ++ "  " ++ columns

def imageRow (width : Nat) (image : Estimate) : Except Fault String := do
  let words ← integer image.words
  return row width image.fileName image.aspectRatio.toText words
    (if image.twoColumn then "yes" else "no")

/-- The table of images and their sum. -/
def imageLines (report : Report) : Except Fault (List String) := do
  if report.images.isEmpty then return ["The file doesn't contain images."]
  let width := columnWidth (report.images.map (·.fileName)) fileNameHeader
  let header := row width fileNameHeader ratioHeader wordsHeader columnsHeader
  let rows ← report.images.mapM (imageRow width)
  let sum ← integer report.imageWords
  return header :: dashes header.length :: rows ++ ["", "Total word count for images: " ++ sum]

/-- A text without the line feeds at its end. -/
def dropFinalNewlines (text : String) : String :=
  String.ofList (text.toList.reverse.dropWhile (· == '\n')).reverse

def lines (report : Report) : Except Fault (List String) := do
  let mathLines ← integer report.mathLines
  let images ← report.imageLines
  let total ← integer report.total
  return ["", underline "Words in text, headers and equations",
      dropFinalNewlines report.counterOutput,
      "Number of displayed math lines: " ++ mathLines, "", underline "Images"] ++ images ++
    ["", "Total word count (words + equations + images)", total]

def text (report : Report) : Except Fault String := do
  let lines ← report.lines
  return "\n".intercalate lines ++ "\n"

end Galley.Report
