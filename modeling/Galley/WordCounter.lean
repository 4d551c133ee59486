import Galley.Run
import Galley.Scan
import Galley.Text.Blank

/-!
# The word counter

Words of running text, headers and captions are counted by another program. It is started once,
and its output holds the sum.
-/

namespace Galley

structure WordCounter where
  command : String := "texcount"
  flags : List String := ["-utf8", "-sum=1,1,1,0,0,1,0"]
  deriving DecidableEq, Repr

namespace WordCounter

/-- What becomes of the program when it is started. -/
inductive Answer where
  | finished (output : String) (status : Int) (errors : String)
  | unavailable (reason : String)
  deriving DecidableEq, Repr

structure Summary where
  output : String
  words : Nat
  deriving DecidableEq, Repr

/-- The digits of a sum: `Sum`, a white-space character, `count:`, another one, and digits. -/
def readSum : Reader Char (List Char) := fun cs => do
  let rest ← "Sum".toList.isPrefixOf? cs
  let rest ← "count:".toList.isPrefixOf? (← Text.blank? rest)
  let digits := (← Text.blank? rest).takeWhile Text.isDigit
  if digits.isEmpty then none else return (digits, digits.length + 11)

/-- The first sum in an output. -/
def sumCount (output : String) : Except Failure Nat :=
  match (readings readSum output.toList).head? with
  | none => .error (.mismatch .missingSum)
  | some digits =>
    if Text.digitLimit < digits.length then .error (.fault (.tooManyDigitsRead digits.length))
    else .ok (Text.natOfDigits digits)

def commandLine (counter : WordCounter) (texPath : Path) : List String :=
  counter.command :: texPath.text :: counter.flags

/-- The warning that a status other than 0 is worth. -/
def warnings (counter : WordCounter) (status : Int) (errors : String) : List Record :=
  if status = 0 then []
  else
    let errors := String.ofList (Text.trim errors.toList)
    [.warning s!"{counter.command} exited with status {Text.integer status}: {errors}"]

/-- Starts the program on a source and reads the sum from its answer. -/
def run (counter : WordCounter) (texPath : Path) (answer : Answer) : Run Summary :=
  match answer with
  | .unavailable reason =>
    ⟨[counter.commandLine texPath], [], .error (.unavailable (.counter counter.command reason))⟩
  | .finished output status errors =>
    ⟨[counter.commandLine texPath], counter.warnings status errors,
      (sumCount output).map fun words => ⟨output, words⟩⟩

end WordCounter

end Galley
