import Galley.Text.Unprintable

/-! # Quoted text

A quoted text stands between two equal quotes. Inside, the backslash and the chosen quote take a
backslash in front, and a character that cannot be printed is written by its code point.
-/

namespace Galley.Text

/-- Single quotes, unless the text holds a single quote and no double quote. -/
def quoteMark (cs : List Char) : Char :=
  if cs.contains '\'' && !cs.contains '"' then '"' else '\''

/-- A number in lower-case hexadecimal digits, filled up with zeros to `width`. -/
def hexadecimal (width n : Nat) : List Char :=
  let digits := Nat.toDigits 16 n
  List.replicate (width - digits.length) '0' ++ digits

/-- The written form of one character inside the quotes `mark`. -/
def escape (mark c : Char) : List Char :=
  if c == mark || c == '\\' then ['\\', c]
  else if c == '\t' then ['\\', 't']
  else if c == '\n' then ['\\', 'n']
  else if c == '\r' then ['\\', 'r']
  else if isUnprintable c then
    if c.toNat ≤ 0xff then '\\' :: 'x' :: hexadecimal 2 c.toNat
    else if c.toNat ≤ 0xffff then '\\' :: 'u' :: hexadecimal 4 c.toNat
    else '\\' :: 'U' :: hexadecimal 8 c.toNat
  else [c]

def quoteChars (cs : List Char) : List Char :=
  let mark := quoteMark cs
  mark :: cs.flatMap (escape mark) ++ [mark]

def quote (text : String) : String :=
  String.ofList (quoteChars text.toList)

end Galley.Text
