import Galley.Binary64.Text
import Galley.Obstacle
import Galley.Path
import Galley.Text.Integer

/-!
# Failures

A run without a report ends in one of four ways. A notice is given to the user and the run counts
as finished. An input that cannot be had and parts that do not fit together are fatal and end it
in error. A fault of a number or a name is one that no stage accounts for.
-/

namespace Galley

/-- What the user is told before a run ends in good order. -/
inductive Notice where
  | usage
  | missingSource (path : Path)
  deriving DecidableEq, Repr

/-- A number or a name that cannot be worked with. -/
inductive Fault where
  | notNumber (text : String)
  | notInteger (text : String)
  | notDimension (text : String)
  | tooManyDigitsRead (count : Nat)
  | tooManyDigitsWritten
  | coefficientTooLong
  | exponentTooLarge
  | divisionByZero
  | ceilingOfInfinity
  | ceilingOfNan
  | emptyName (path : Path)
  | nameTooLong (path : Path)
  deriving DecidableEq, Repr

/-- An input of a run that cannot be had. -/
inductive Unavailable where
  | source (path : Path)
  | log (path : Path)
  | counter (command reason : String)
  deriving DecidableEq, Repr

/-- Parts of the document, its log and the word counter's output that do not fit together. -/
inductive Mismatch where
  | missingSum
  | malformedSize (cause : Fault)
  | missingSizes (images sizes : Nat)
  | missingFigures (images figures : Nat)
  | heightNotPositive (height : Binary64)
  | widthNotPositive (width height ratio : Binary64)
  | ratioNotPositive (ratio : Binary64)
  | unknownColumnMode (label : String)
  deriving DecidableEq, Repr

inductive Failure where
  | notice (cause : Notice)
  | unavailable (cause : Unavailable)
  | mismatch (cause : Mismatch)
  | fault (cause : Fault)
  deriving DecidableEq, Repr

def Notice.message : Notice → String
  | .usage => "Usage: tex-length filename"
  | .missingSource path => s!"The file {path.text} doesn't exist"

def Fault.message : Fault → String
  | .notNumber text => "could not convert string to float: " ++ Text.quote text
  | .notInteger text => "invalid literal for int() with base 10: " ++ Text.quote text
  | .notDimension text => "Not a point dimension: " ++ Text.quote text
  | .tooManyDigitsRead count =>
    s!"Exceeds the limit ({Text.digitLimit} digits) for integer string conversion: value has {count} digits; use sys.set_int_max_str_digits() to increase the limit"
  | .tooManyDigitsWritten =>
    s!"Exceeds the limit ({Text.digitLimit} digits) for integer string conversion; use sys.set_int_max_str_digits() to increase the limit"
  | .coefficientTooLong => "[<class 'decimal.InvalidOperation'>]"
  | .exponentTooLarge => "[<class 'decimal.Overflow'>]"
  | .divisionByZero => "float division by zero"
  | .ceilingOfInfinity => "cannot convert float infinity to integer"
  | .ceilingOfNan => "cannot convert float NaN to integer"
  | .emptyName path => "PosixPath(" ++ Text.quote path.text ++ ") has an empty name"
  | .nameTooLong path => Obstacle.nameTooLong.message path.text

def Unavailable.message : Unavailable → String
  | .source path => s!"File {path.text} not found."
  | .log path => s!"File {path.text} not found. Please compile the .tex file"
  | .counter command reason => s!"Could not run {command}: {reason}"

def Mismatch.message : Mismatch → String
  | .missingSum => "texcount output has no 'Sum count:' line"
  | .malformedSize cause => "Malformed requested size in log: " ++ cause.message
  | .missingSizes images sizes => s!"Log lists {images} images but only {sizes} requested sizes"
  | .missingFigures images figures =>
    s!"Log places {images} images but the document has only {figures} figure environments"
  | .heightNotPositive height => s!"Image height must be positive, got {height.toText}pt"
  | .widthNotPositive width height ratio =>
    s!"Image width must be positive, got {width.toText}pt x {height.toText}pt (aspect ratio {ratio.toText})"
  | .ratioNotPositive ratio => s!"Aspect ratio must be positive, got {ratio.toText}"
  | .unknownColumnMode label =>
    "Unrecognized figure environment variant: " ++ Text.quote label

def Failure.message : Failure → String
  | .notice cause => cause.message
  | .unavailable cause => cause.message
  | .mismatch cause => cause.message
  | .fault cause => cause.message

end Galley
