import Calculator.Bytes
import Calculator.Positional

/-!
# Digit words and their byte image

The digits of a numerator are 32-bit words, least significant word first. A copy to or from a block
sees them as their little-endian byte image. A 64-bit offset travels as two such words. Counts that
become signed words lose what does not fit.
-/

namespace Calculator.Word

def size : Nat := 4

def base : Nat := 4294967296

def toBytes (word : UInt32) : Bytes :=
  [word.toUInt8, (word >>> 8).toUInt8, (word >>> 16).toUInt8, (word >>> 24).toUInt8]

def ofBytes (a b c d : UInt8) : UInt32 :=
  a.toUInt32 ||| (b.toUInt32 <<< 8) ||| (c.toUInt32 <<< 16) ||| (d.toUInt32 <<< 24)

def image (words : List UInt32) : Bytes :=
  words.flatMap toBytes

/-- The words of a byte image; a partial last word is padded with zeros. -/
def ofImage : Bytes → List UInt32
  | [] => []
  | [a] => [ofBytes a 0 0 0]
  | [a, b] => [ofBytes a b 0 0]
  | [a, b, c] => [ofBytes a b c 0]
  | a :: b :: c :: d :: rest => ofBytes a b c d :: ofImage rest

/-- The words of a natural number, without high zero words. -/
def ofNat (number : Nat) : List UInt32 :=
  (Positional.digits base number).map Nat.toUInt32

def toNat (words : List UInt32) : Nat :=
  Positional.value base (words.map UInt32.toNat)

def split (offset : UInt64) : UInt32 × UInt32 :=
  (offset.toUInt32, (offset >>> 32).toUInt32)

/-- What is left of a count in a signed 32-bit word. -/
def signed32 (count : Nat) : Int :=
  (Int32.ofNat count).toInt

/-- What is left of a count in a signed 64-bit word. -/
def signed64 (count : Nat) : Int :=
  (Int64.ofNat count).toInt

def join (low high : UInt32) : UInt64 :=
  low.toUInt64 ||| (high.toUInt64 <<< 32)

theorem image_length (words : List UInt32) : (image words).length = size * words.length := by
  induction words with
  | nil => rfl
  | cons word rest ih =>
      simp only [image, List.flatMap_cons, List.length_append, List.length_cons] at ih ⊢
      rw [ih]
      simp [toBytes, size]
      omega

end Calculator.Word
