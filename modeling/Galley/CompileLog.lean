import Galley.Dimension
import Galley.Scan

/-!
# The log of a compilation

For each graphic that it places, the log names the file and gives the requested size. Both are
listed in the order of placement, and the `i`-th size belongs to the `i`-th name.
-/

namespace Galley

/-- A placed graphic with its size in points. -/
structure Image where
  fileName : String
  width : Binary64
  height : Binary64
  deriving DecidableEq, Repr

namespace CompileLog

def useMark : String := "<use "

def sizeMark : String := "Requested size:"

def isNameChar (c : Char) : Bool :=
  c != '>' && c != '\n'

/-- A name up to the next closing angle bracket of its line. -/
def readUse : Reader Char String := fun cs => do
  let rest ← useMark.toList.isPrefixOf? cs
  let name := rest.takeWhile isNameChar
  match rest.dropWhile isNameChar with
  | '>' :: _ => return (String.ofList name, useMark.length + name.length + 1)
  | _ => none

/-- A nonempty run of digits and dots before `pt`, and the rest of the text. -/
def magnitudeBefore? (cs : List Char) : Option (List Char × List Char) :=
  let run := cs.takeWhile Dimension.isMagnitudeChar
  match cs.dropWhile Dimension.isMagnitudeChar with
  | 'p' :: 't' :: rest => if run.isEmpty then none else some (run, rest)
  | _ => none

/-- The two magnitudes of a requested size, as they are written. -/
def readSize : Reader Char (List Char × List Char) := fun cs => do
  let rest ← sizeMark.toList.isPrefixOf? cs
  let (width, rest) ← magnitudeBefore? (← Text.blank? rest)
  let rest ← ['x'].isPrefixOf? (← Text.blank? rest)
  let (height, _) ← magnitudeBefore? (← Text.blank? rest)
  return ((width, height), sizeMark.length + width.length + height.length + 8)

def fileNames (log : String) : List String :=
  readings readUse log.toList

/-- The requested sizes, width first. The first magnitude that is no number is a fault. -/
def sizes (log : String) : Except Fault (List (Binary64 × Binary64)) :=
  (readings readSize log.toList).mapM fun (width, height) => do
    return (← Dimension.magnitude width, ← Dimension.magnitude height)

/-- The images that the log places. Sizes beyond the last name are left out. -/
def images (log : String) : Except Mismatch (List Image) :=
  let names := fileNames log
  match sizes log with
  | .error cause => .error (.malformedSize cause)
  | .ok sizes =>
    if sizes.length < names.length then .error (.missingSizes names.length sizes.length)
    else .ok ((names.zip sizes).map fun (name, width, height) => ⟨name, width, height⟩)

end CompileLog

end Galley
