import Galley.Text.Quoted

/-! # What can stand in the way of a path -/

namespace Galley

/-- Why a path cannot be followed to a file. -/
inductive Obstacle where
  | noEntry
  | notFolder
  | isFolder
  | taken
  | nameTooLong
  | nullCharacter
  deriving DecidableEq, Repr

/-- The message on an obstacle in the way of a path. -/
def Obstacle.message (obstacle : Obstacle) (path : String) : String :=
  match obstacle with
  | .noEntry => "[Errno 2] No such file or directory: " ++ Text.quote path
  | .notFolder => "[Errno 20] Not a directory: " ++ Text.quote path
  | .isFolder => "[Errno 21] Is a directory: " ++ Text.quote path
  | .taken => "[Errno 17] File exists: " ++ Text.quote path
  | .nameTooLong => "[Errno 36] File name too long: " ++ Text.quote path
  | .nullCharacter => "embedded null byte"

end Galley
