import Galley.Failure
import Galley.Text.Blank

/-!
# Point dimensions

A dimension is a magnitude with the unit `pt`. A magnitude is a run of digits and dots, which
denotes a number when it has a digit and no second dot.
-/

namespace Galley.Dimension

def isMagnitudeChar (c : Char) : Bool :=
  c == '.' || Text.isDigit c

/-- The number nearest to the decimal that a magnitude denotes. -/
def magnitude (run : List Char) : Except Fault Binary64 :=
  match Decimal.ofNumeral? run with
  | some d => .ok (.ofDecimal d)
  | none => .error (.notNumber (String.ofList run))

/-- The nonempty run of digits and dots before `pt`, with white space allowed around both. -/
def magnitudeRun? (cs : List Char) : Option (List Char) :=
  let body := cs.dropWhile Text.isBlank
  let run := body.takeWhile isMagnitudeChar
  match (body.dropWhile isMagnitudeChar).dropWhile Text.isBlank with
  | 'p' :: 't' :: rest => if !run.isEmpty && rest.all Text.isBlank then some run else none
  | _ => none

/-- The number of points that a dimension denotes. -/
def points (text : String) : Except Fault Binary64 :=
  match magnitudeRun? text.toList with
  | some run => magnitude run
  | none => .error (.notDimension text)

end Galley.Dimension
