/-! # White space -/

namespace Galley.Text

/-- White space is the tabs and line ends from U+0009 to U+000D, the four separators from
U+001C to U+001F, the next-line control, and the blanks of general category `Zs`, `Zl` and
`Zp`. The zero-width characters U+200B, U+2060 and U+FEFF are not in it. -/
def isBlank (c : Char) : Bool :=
  let n := c.toNat
  (0x09 ≤ n && n ≤ 0x0d) || (0x1c ≤ n && n ≤ 0x20) || n == 0x85 || n == 0xa0 || n == 0x1680 ||
    (0x2000 ≤ n && n ≤ 0x200a) || n == 0x2028 || n == 0x2029 || n == 0x202f || n == 0x205f ||
    n == 0x3000

/-- Drops the white space at both borders. -/
def trim (cs : List Char) : List Char :=
  ((cs.dropWhile isBlank).reverse.dropWhile isBlank).reverse

/-- The rest of a text after one white-space character. -/
def blank? : List Char → Option (List Char)
  | c :: cs => if isBlank c then some cs else none
  | [] => none

end Galley.Text
