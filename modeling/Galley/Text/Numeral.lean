import Galley.Text.Blank
import Galley.Text.Digit

/-!
# Written numbers

What decimals and integers have in common where they are written by hand: white space around
them, underscores between their digits, and a sign.
-/

namespace Galley.Text

/-- The white space around a number, which the separators from U+001C to U+001F are not part of. -/
def isNumeralBlank (c : Char) : Bool :=
  isBlank c && !(0x1c ≤ c.toNat && c.toNat ≤ 0x1f)

/-- Drops the white space around a number. -/
def trimNumeral (cs : List Char) : List Char :=
  ((cs.dropWhile isNumeralBlank).reverse.dropWhile isNumeralBlank).reverse

/-- Drops the underscores, each of which has to stand between two digits. -/
def dropUnderscores? : Bool → List Char → Option (List Char)
  | _, [] => some []
  | _, ['_'] => none
  | afterDigit, '_' :: c :: cs =>
    if afterDigit && isDigit c then (dropUnderscores? true cs).map (c :: ·) else none
  | _, c :: cs => (dropUnderscores? (isDigit c) cs).map (c :: ·)

/-- Whether a minus sign stands in front, and what is behind the sign. -/
def splitSign : List Char → Bool × List Char
  | '-' :: cs => (true, cs)
  | '+' :: cs => (false, cs)
  | cs => (false, cs)

/-- A written number in plain form: its sign, and the rest. -/
def plainNumeral? (cs : List Char) : Option (Bool × List Char) :=
  (dropUnderscores? false (trimNumeral cs)).map splitSign

/-- An integer in digits with an optional sign. -/
def signedInteger? (cs : List Char) : Option Int :=
  let (negative, digits) := splitSign cs
  if digits.isEmpty then none
  else (natOfDigits? digits).map fun n => if negative then -(n : Int) else n

/-- Reads a written integer of any length. -/
def integer? (text : String) : Option Int :=
  (dropUnderscores? false (trimNumeral text.toList)).bind signedInteger?

end Galley.Text
