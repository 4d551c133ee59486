/-! # Reading UTF-8

Bytes are read one at a time. A well-formed sequence gives its character; every maximal piece of
an ill-formed one gives a single U+FFFD, and the byte that broke the sequence starts afresh.
-/

namespace Galley.Text.Utf8

/-- Between characters, or inside a sequence that still needs `missing + 1` bytes. The next byte
has to lie between `low` and `high`, and `value` holds the bits that were read so far. -/
inductive State where
  | boundary
  | within (missing low high value : Nat)
  deriving DecidableEq, Repr

def replacement : Char := '\ufffd'

/-- The characters that a byte at a boundary completes, and the state after it. The second
byte's range keeps out overlong forms, surrogates and values above U+10FFFF. -/
def lead (byte : Nat) : List Char × State :=
  if byte < 0x80 then ([Char.ofNat byte], .boundary)
  else if byte < 0xc2 then ([replacement], .boundary)
  else if byte < 0xe0 then ([], .within 0 0x80 0xbf (byte - 0xc0))
  else if byte == 0xe0 then ([], .within 1 0xa0 0xbf 0)
  else if byte == 0xed then ([], .within 1 0x80 0x9f 0xd)
  else if byte < 0xf0 then ([], .within 1 0x80 0xbf (byte - 0xe0))
  else if byte == 0xf0 then ([], .within 2 0x90 0xbf 0)
  else if byte < 0xf4 then ([], .within 2 0x80 0xbf (byte - 0xf0))
  else if byte == 0xf4 then ([], .within 2 0x80 0x8f 4)
  else ([replacement], .boundary)

/-- The characters that a byte completes in a state, and the state after it. -/
def step : State → Nat → List Char × State
  | .boundary, byte => lead byte
  | .within missing low high value, byte =>
    if low ≤ byte && byte ≤ high then
      let value := 64 * value + (byte - 0x80)
      match missing with
      | 0 => ([Char.ofNat value], .boundary)
      | missing + 1 => ([], .within missing 0x80 0xbf value)
    else
      let (chars, next) := lead byte
      (replacement :: chars, next)

/-- Reads on from a state. A sequence that the last byte leaves open gives a replacement. -/
def decodeFrom : State → List UInt8 → List Char
  | .boundary, [] => []
  | .within .., [] => [replacement]
  | state, byte :: bytes =>
    let (chars, next) := step state byte.toNat
    chars ++ decodeFrom next bytes

def decode (bytes : List UInt8) : List Char :=
  decodeFrom .boundary bytes

end Galley.Text.Utf8
