import Galley.CommandLine

/-!
# The program

Reads the two files of a manuscript from the working directory, and the output of the word
counter from the standard input. Everything else is worked out by `CommandLine.execute`.
-/

namespace Galley.Main

/-- Whether a path can be followed to something that is there. -/
def isThere (path : Path) : IO Bool := do
  try
    discard (IO.FS.realPath path.text)
    return true
  catch _ => return false

/-- The bytes of a file. What is there and cannot be read counts as a folder. If it cannot be found
out whether anything is there, as without permission for a folder on the way, this is an error. -/
def read (path : Path) : IO (Except Obstacle (List UInt8)) := do
  try
    return .ok (← IO.FS.readBinFile path.text).toList
  catch error =>
    if ← isThere path then
      return .error .isFolder
    match error with
    | .noFileOrDirectory .. => return .error .noEntry
    | .inappropriateType .. => return .error .notFolder
    -- Error 40 stands for links that lead in a circle, so that there is no entry.
    | .invalidArgument _ number _ => return .error (if number = -40 then .noEntry else .nameTooLong)
    | _ => throw error

/-- The files that the arguments bear on, with what is found there. No error comes of the log. -/
def files (arguments : List String) :
    IO (List (Path × Except Obstacle (List UInt8))) := do
  match CommandLine.read arguments with
  | .run (some fileName) =>
    let base := Manuscript.resolve fileName
    let some texPath := base.addExtension? ".tex" | return []
    let some logPath := base.addExtension? ".log" | return []
    let source ← read texPath
    let log ← try read logPath catch _ => pure (.error .noEntry)
    return [(texPath, source), (logPath, log)]
  | _ => return []

def readAll (stream : IO.FS.Stream) : IO String := do
  let mut text := ""
  let mut line ← stream.getLine
  while !line.isEmpty do
    text := text ++ line
    line ← stream.getLine
  return text

def run (arguments : List String) : IO UInt32 := do
  let found ← files arguments
  let output ← if found.isEmpty then pure "" else readAll (← IO.getStdin)
  let execution := CommandLine.execute
    { read := fun path => (found.lookup path).getD (.error .noEntry)
      answer := .finished output 0 "" }
    arguments
  (← IO.getStdout).putStr execution.output
  (← IO.getStderr).putStr execution.errors
  match execution.status with
  | .ok status => return status.toUInt32
  | .error fault =>
    (← IO.getStderr).putStrLn fault.message
    return 1

end Galley.Main

def main (arguments : List String) : IO UInt32 :=
  Galley.Main.run arguments
