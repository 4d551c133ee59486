import Galley.Binary64.Shortest

/-!
# Numbers as text

A number is written with the digits of its shortest decimal: positionally and with a fraction
from `10 ^ (-4)` up to below `10 ^ 16`, otherwise as one leading digit with an exponent.
-/

namespace Galley.Binary64

/-- Digits times `10 ^ exponent`, with at least one digit on both sides of the dot. -/
def positional (digits : List Char) (exponent : Int) : List Char :=
  if 0 ≤ exponent then digits ++ List.replicate exponent.toNat '0' ++ ['.', '0']
  else
    let places := (-exponent).toNat
    if places < digits.length then
      digits.take (digits.length - places) ++ '.' :: digits.drop (digits.length - places)
    else '0' :: '.' :: List.replicate (places - digits.length) '0' ++ digits

/-- The first digit, the rest behind a dot if there is one, and the exponent of the first digit
with its sign and at least two digits. -/
def exponential (digits : List Char) (order : Int) : List Char :=
  let fraction := digits.drop 1
  let exponent := Nat.toDigits 10 order.natAbs
  digits.take 1 ++ (if fraction.isEmpty then [] else '.' :: fraction) ++
    'e' :: (if order < 0 then '-' else '+') ::
      (List.replicate (2 - exponent.length) '0' ++ exponent)

def decimalChars (d : Decimal) : List Char :=
  (if d.negative then ['-'] else []) ++
    if -4 ≤ d.order && d.order < 16 then positional d.digits d.exponent
    else exponential d.digits d.order

def toText : Binary64 → String
  | .nan => "nan"
  | .infinity false => "inf"
  | .infinity true => "-inf"
  | .finite x => String.ofList (decimalChars (shortestDecimal x))

end Galley.Binary64
