import Galley.Scan
import Galley.Text.Braced

/-! # The abstract of a document -/

namespace Galley.Abstract

def opening : String := "\\begin" ++ Text.braced "abstract"

def closing : String := "\\end" ++ Text.braced "abstract"

/-- The text between the first opening mark and the first closing mark after it. -/
def find? (text : String) : Option String := do
  let (_, rest) ← splitAtFirst? opening.toList text.toList
  let (body, _) ← splitAtFirst? closing.toList rest
  return String.ofList body

end Galley.Abstract
