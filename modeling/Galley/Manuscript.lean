import Galley.Abstract
import Galley.Comment
import Galley.Failure
import Galley.Text.Newline
import Galley.Text.Utf8

/-!
# Manuscripts

A manuscript is a document and the log of its compilation, two files side by side that differ in
their extensions only.
-/

namespace Galley

/-- The text of a file, with line feeds for line ends. -/
def Text.ofBytes (bytes : List UInt8) : String :=
  String.ofList (Text.unifyNewlines (Text.Utf8.decode bytes))

/-- The files that a run can read. -/
abbrev FileReader := Path → Except Obstacle (List UInt8)

/-- A loaded manuscript. The source is without its comments. -/
structure Manuscript where
  basePath : Path
  texPath : Path
  logPath : Path
  source : String
  log : String
  abstract? : Option String
  deriving DecidableEq, Repr

namespace Manuscript

/-- The path that a file name stands for, without an extension. -/
def resolve (fileName : String) : Path :=
  (Path.ofString fileName).withoutExtension

def extend (base : Path) (extension : String) : Except Fault Path :=
  match base.addExtension? extension with
  | some path => .ok path
  | none => .error (.emptyName base)

def texPathOf (base : Path) : Except Fault Path :=
  extend base ".tex"

def logPathOf (base : Path) : Except Fault Path :=
  extend base ".log"

/-- The source has to exist before anything is read. -/
def readSource (read : FileReader) (path : Path) : Except Failure String :=
  match read path with
  | .ok bytes => .ok (Text.ofBytes bytes)
  | .error .nameTooLong => .error (.fault (.nameTooLong path))
  | .error .isFolder => .error (.unavailable (.source path))
  | .error _ => .error (.notice (.missingSource path))

def readLog (read : FileReader) (path : Path) : Except Failure String :=
  match read path with
  | .ok bytes => .ok (Text.ofBytes bytes)
  | .error _ => .error (.unavailable (.log path))

/-- Loads the manuscript that a file name stands for. -/
def load (read : FileReader) (fileName : String) : Except Failure Manuscript := do
  let base := resolve fileName
  let texPath ← (texPathOf base).mapError .fault
  let logPath ← (logPathOf base).mapError .fault
  let raw ← readSource read texPath
  let log ← readLog read logPath
  let source := Comment.strip raw
  return ⟨base, texPath, logPath, source, log, Abstract.find? source⟩

end Manuscript

end Galley
