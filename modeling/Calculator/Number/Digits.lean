import Calculator.Number.Basic
import Calculator.Word

/-!
# Numerator digits

A raw copy sees a number as the words of its numerator's magnitude. This module reads those words,
writes bytes over them, and summarises the digits of a number so that most different numbers are
told apart at a glance.
-/

namespace Calculator.Number

/-- Words of a magnitude; zero is one zero word. -/
def magnitudeWords (magnitude : Nat) : List UInt32 :=
  if magnitude = 0 then [0] else Word.ofNat magnitude

def numeratorWords (number : Number) : List UInt32 :=
  magnitudeWords number.num.natAbs

def numeratorLength (number : Number) : Nat :=
  number.numeratorWords.length

def numeratorBytes (number : Number) : Bytes :=
  Word.image number.numeratorWords

def wordsFor (count : Nat) : Nat :=
  (count + (Word.size - 1)) / Word.size

/-- The number with `bytes` written over its numerator image from word `start` on. The image grows by
zero words as needed; sign and denominator carry over, and what they have in common is divided out. -/
def overwriteNumerator (number : Number) (start : Nat) (bytes : Bytes) : Number :=
  let words := number.numeratorWords
  let needed := start + wordsFor bytes.length
  let padded := words ++ List.replicate (needed - words.length) 0
  let patched := (Word.image padded).overwrite (start * Word.size) bytes
  let magnitude := Word.toNat (Word.ofImage patched)
  let numerator : Int := if number.num < 0 then -(magnitude : Int) else magnitude
  let divisor := Int.gcd numerator number.den
  if divisor = 0 then ⟨numerator, number.den⟩ else divided divisor numerator number.den

/-- Word counts, low words and sign of a number. -/
structure DigitProfile where
  numeratorLength : Nat
  numeratorLow : UInt32
  denominatorLength : Nat
  denominatorLow : UInt32
  sign : Sign
  deriving DecidableEq, Repr

/-- How many words a magnitude has, at least one. -/
def magnitudeLength (magnitude : Nat) : Nat :=
  Nat.log2 magnitude / 32 + 1

def profile (number : Number) : DigitProfile where
  numeratorLength := magnitudeLength number.num.natAbs
  numeratorLow := number.num.natAbs.toUInt32
  denominatorLength := magnitudeLength number.den.natAbs
  denominatorLow := number.den.natAbs.toUInt32
  sign := number.sign

end Calculator.Number
