/-! # Integers as text -/

namespace Galley.Text

def natChars (n : Nat) : List Char :=
  Nat.toDigits 10 n

def integerChars (n : Int) : List Char :=
  (if n < 0 then ['-'] else []) ++ natChars n.natAbs

def integer (n : Int) : String :=
  String.ofList (integerChars n)

/-- Integers of more digits than this are neither read nor written. -/
def digitLimit : Nat := 4300

end Galley.Text
