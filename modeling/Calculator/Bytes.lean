/-!
# Byte strings

Texts, blocks and file contents are lists of bytes. This module holds the operations they share:
replacing a stretch, reading up to a NUL, and the hexadecimal digits of bytes.
-/

namespace Calculator

abbrev Bytes := List UInt8

namespace Bytes

/-- Puts `patch` over the bytes that start at `start`; what lies before and after stays. -/
def overwrite (bytes : Bytes) (start : Nat) (patch : Bytes) : Bytes :=
  bytes.take start ++ patch ++ bytes.drop (start + patch.length)

/-- The bytes from `start` up to the first NUL or the end. -/
def nulRun (bytes : Bytes) (start : Nat) : Bytes :=
  (bytes.drop start).takeWhile (· != 0)

def zeros (count : Nat) : Bytes :=
  List.replicate count 0

def hexDigit (nibble : Nat) : Char :=
  if nibble < 10 then Char.ofNat ('0'.toNat + nibble) else Char.ofNat ('a'.toNat + (nibble - 10))

def hex (bytes : Bytes) : String :=
  String.ofList (bytes.flatMap fun byte => [hexDigit (byte.toNat / 16), hexDigit (byte.toNat % 16)])

def hexValue? (digit : Char) : Option Nat :=
  if '0' ≤ digit ∧ digit ≤ '9' then some (digit.toNat - '0'.toNat)
  else if 'a' ≤ digit ∧ digit ≤ 'f' then some (digit.toNat - 'a'.toNat + 10)
  else none

/-- Reads pairs of hexadecimal digits behind the bytes in `read`, which are in reverse. -/
def ofHexAfter? (read : List UInt8) : List Char → Option Bytes
  | [] => some read.reverse
  | [_] => none
  | high :: low :: rest =>
      match hexValue? high, hexValue? low with
      | some high, some low => ofHexAfter? ((high * 16 + low).toUInt8 :: read) rest
      | _, _ => none

/-- The bytes that are written as the given hexadecimal digits. -/
def ofHex? (digits : String) : Option Bytes :=
  ofHexAfter? [] digits.toList

def ofString (text : String) : Bytes :=
  text.toUTF8.toList

theorem overwrite_length
    {bytes patch : Bytes} {start : Nat}
    (fits : start + patch.length ≤ bytes.length) :
    (overwrite bytes start patch).length = bytes.length := by
  simp [overwrite]
  omega

theorem overwrite_nil (bytes : Bytes) (start : Nat) : overwrite bytes start [] = bytes := by
  simp [overwrite]

theorem zeros_length (count : Nat) : (zeros count).length = count := by
  simp [zeros]

end Bytes

end Calculator
