import Galley.Binary64.Basic
import Galley.Text.Numeral

/-! # Reading numbers -/

namespace Galley.Binary64

/-- A numeral with an optional exponent behind `e`. -/
def unsignedDecimal? (cs : List Char) : Option Decimal := do
  let isNumeralChar := fun c => c != 'e' && c != 'E'
  let d ← Decimal.ofNumeral? (cs.takeWhile isNumeralChar)
  match cs.dropWhile isNumeralChar with
  | [] => return d
  | _ :: exponent => return { d with exponent := d.exponent + (← Text.signedInteger? exponent) }

/-- The number nearest to a decimal. One of at least `10 ^ 400` is infinite and one below
`10 ^ (-400)` is zero, without the power being worked out. -/
def ofDistantDecimal (d : Decimal) : Binary64 :=
  if d.coefficient = 0 || d.order < -400 then zero d.negative
  else if 400 < d.order then .infinity d.negative
  else ofDecimal d

/-- The number that a text without its sign denotes: a decimal, an infinity or not-a-number. -/
def ofUnsigned? (negative : Bool) (cs : List Char) : Option Binary64 :=
  match String.ofList (cs.map Char.toLower) with
  | "nan" => some .nan
  | "inf" | "infinity" => some (.infinity negative)
  | _ => (unsignedDecimal? cs).map fun d => ofDistantDecimal { d with negative := negative }

/-- Reads a written number. -/
def ofText? (text : String) : Option Binary64 :=
  (Text.plainNumeral? text.toList).bind fun (negative, cs) => ofUnsigned? negative cs

end Galley.Binary64
