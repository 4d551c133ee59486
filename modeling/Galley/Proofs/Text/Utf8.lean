import Mathlib
import Galley.Text.Utf8

/-! # Written UTF-8 is read back -/

namespace Galley.Text.Utf8

def encode (cs : List Char) : List UInt8 :=
  cs.flatMap String.utf8EncodeChar

theorem decodeFrom_cons (state : State) (byte : UInt8) (bytes : List UInt8) :
    decodeFrom state (byte :: bytes) =
      (step state byte.toNat).1 ++ decodeFrom (step state byte.toNat).2 bytes := by
  cases state <;> rfl

/-- A byte in the range that is asked for goes on with a sequence, or ends it. -/
theorem decodeFrom_within {missing low high value : Nat} {byte : UInt8} (bytes : List UInt8)
    (hlow : low ≤ byte.toNat) (hhigh : byte.toNat ≤ high) :
    decodeFrom (.within missing low high value) (byte :: bytes) =
      match missing with
      | 0 => Char.ofNat (64 * value + (byte.toNat - 0x80)) :: decodeFrom .boundary bytes
      | missing + 1 =>
        decodeFrom (.within missing 0x80 0xbf (64 * value + (byte.toNat - 0x80))) bytes := by
  rw [decodeFrom_cons]
  cases missing <;> simp [step, hlow, hhigh]

theorem lead_two {byte : Nat} (hlow : 0xc2 ≤ byte) (hhigh : byte < 0xe0) :
    lead byte = ([], .within 0 0x80 0xbf (byte - 0xc0)) := by
  unfold lead
  rw [if_neg (by omega), if_neg (by omega), if_pos hhigh]

theorem lead_three {byte : Nat} (hlow : 0xe0 ≤ byte) (hhigh : byte < 0xf0) :
    lead byte = ([], .within 1 (if byte = 0xe0 then 0xa0 else 0x80)
      (if byte = 0xed then 0x9f else 0xbf) (byte - 0xe0)) := by
  unfold lead
  rw [if_neg (by omega), if_neg (by omega), if_neg (by omega)]
  by_cases hfirst : byte = 0xe0
  · simp [hfirst]
  · by_cases hsurrogates : byte = 0xed
    · simp [hsurrogates]
    · simp [hfirst, hsurrogates, hhigh]

theorem lead_four {byte : Nat} (hlow : 0xf0 ≤ byte) (hhigh : byte ≤ 0xf4) :
    lead byte = ([], .within 2 (if byte = 0xf0 then 0x90 else 0x80)
      (if byte = 0xf4 then 0x8f else 0xbf) (byte - 0xf0)) := by
  unfold lead
  rw [if_neg (by omega), if_neg (by omega), if_neg (by omega)]
  by_cases hfirst : byte = 0xf0
  · simp [hfirst]
  · by_cases hlast : byte = 0xf4
    · simp [hlast]
    · have hbetween : byte < 0xf4 := by omega
      have hnot : ¬ byte < 0xf0 ∧ byte ≠ 0xe0 ∧ byte ≠ 0xed := by omega
      simp [hfirst, hlast, hbetween, hnot]

theorem toNat_ofNat {n : Nat} (h : n < 256) : (UInt8.ofNat n).toNat = n := by
  simp [Nat.mod_eq_of_lt h]

/-- The bytes of a character are read as the character. The second byte's range is the one that
its lead byte asks for, since a character is no surrogate and at most U+10FFFF. -/
theorem decodeFrom_utf8EncodeChar_append (c : Char) (bytes : List UInt8) :
    decodeFrom .boundary (String.utf8EncodeChar c ++ bytes) = c :: decodeFrom .boundary bytes := by
  have hvalid : c.toNat < 0xd800 ∨ 0xdfff < c.toNat ∧ c.toNat < 0x110000 := c.valid
  have hchar : Char.ofNat c.toNat = c := Char.ofNat_toNat c
  have hcode : c.val.toNat = c.toNat := rfl
  unfold String.utf8EncodeChar
  simp only [hcode]
  generalize c.toNat = v at hvalid hchar
  have hlast : (UInt8.ofNat (v % 64 + 128)).toNat = v % 64 + 128 := toNat_ofNat (by omega)
  have hmiddle : (UInt8.ofNat (v / 64 % 64 + 128)).toNat = v / 64 % 64 + 128 :=
    toNat_ofNat (by omega)
  have hsecond : (UInt8.ofNat (v / 4096 % 64 + 128)).toNat = v / 4096 % 64 + 128 :=
    toNat_ofNat (by omega)
  split_ifs with hone htwo hthree
  · have hfirst : (UInt8.ofNat v).toNat = v := toNat_ofNat (by omega)
    rw [List.singleton_append, decodeFrom_cons, hfirst, step, lead, if_pos (by omega), hchar]
    rfl
  · have hfirst : (UInt8.ofNat (v / 64 % 32 + 192)).toNat = v / 64 % 32 + 192 :=
      toNat_ofNat (by omega)
    simp only [List.cons_append, List.nil_append]
    rw [decodeFrom_cons, hfirst, step, lead_two (by omega) (by omega), List.nil_append,
      decodeFrom_within bytes (by omega) (by omega), hlast]
    have hvalue : 64 * (v / 64 % 32 + 192 - 0xc0) + (v % 64 + 128 - 0x80) = v := by omega
    simp only [hvalue, hchar]
  · have hfirst : (UInt8.ofNat (v / 4096 % 16 + 224)).toNat = v / 4096 % 16 + 224 :=
      toNat_ofNat (by omega)
    simp only [List.cons_append, List.nil_append]
    rw [decodeFrom_cons, hfirst, step, lead_three (by omega) (by omega), List.nil_append,
      decodeFrom_within _ (by split <;> omega) (by split <;> omega)]
    simp only
    rw [decodeFrom_within bytes (by omega) (by omega), hmiddle, hlast]
    have hvalue : 64 * (64 * (v / 4096 % 16 + 224 - 0xe0) + (v / 64 % 64 + 128 - 0x80)) +
        (v % 64 + 128 - 0x80) = v := by omega
    simp only [hvalue, hchar]
  · have hfirst : (UInt8.ofNat (v / 262144 % 8 + 240)).toNat = v / 262144 % 8 + 240 :=
      toNat_ofNat (by omega)
    simp only [List.cons_append, List.nil_append]
    rw [decodeFrom_cons, hfirst, step, lead_four (by omega) (by omega), List.nil_append,
      decodeFrom_within _ (by split <;> omega) (by split <;> omega)]
    simp only
    rw [decodeFrom_within _ (by omega) (by omega)]
    simp only
    rw [decodeFrom_within bytes (by omega) (by omega), hsecond, hmiddle, hlast]
    have hvalue : 64 * (64 * (64 * (v / 262144 % 8 + 240 - 0xf0) + (v / 4096 % 64 + 128 - 0x80)) +
        (v / 64 % 64 + 128 - 0x80)) + (v % 64 + 128 - 0x80) = v := by omega
    simp only [hvalue, hchar]

theorem decode_encode (cs : List Char) : decode (encode cs) = cs := by
  rw [decode, encode]
  induction cs with
  | nil => rfl
  | cons c cs ih => rw [List.flatMap_cons, decodeFrom_utf8EncodeChar_append, ih]

end Galley.Text.Utf8
