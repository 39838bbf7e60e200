import Calculator.ErrorCode

/-!
# Numbers

A number is a numerator and a denominator. This module builds numbers in lowest terms from any two
terms, asks for their parts, and writes them as text.
-/

namespace Calculator

/-- The terms of a fraction, as they are stored. Nothing but the ways in which numbers are made keeps
them coprime and the denominator positive. -/
structure Number where
  num : Int
  den : Int
  deriving DecidableEq, Repr

inductive NumberError where
  | divisionByZero
  | malformed (literal : String)
  | exponentTooBig (literal : String)
  deriving DecidableEq, Repr

namespace NumberError

def message : NumberError → String
  | divisionByZero => "division by zero"
  | malformed literal => "malformed number `" ++ literal ++ "`"
  | exponentTooBig literal => "exponent too big in `" ++ literal ++ "`"

def code : NumberError → ErrorCode
  | divisionByZero => ErrorCode.divisionByZero
  | malformed _ => ErrorCode.evaluation
  | exponentTooBig _ => ErrorCode.exponentTooBig

end NumberError

inductive Sign where
  | negative
  | zero
  | positive
  deriving DecidableEq, Repr

namespace Number

/-- The terms without a common divisor; a divisor of one divides nothing. -/
def divided (divisor : Nat) (numerator denominator : Int) : Number :=
  if divisor = 1 then ⟨numerator, denominator⟩
  else ⟨numerator.tdiv divisor, denominator.tdiv divisor⟩

/-- The fraction `numerator / denominator`. Both terms are divided by what they have in common, and a
sign below the stroke moves above it. -/
def ofFraction (numerator denominator : Int) : Except NumberError Number :=
  if denominator = 0 then .error .divisionByZero
  else
    let number := divided (Int.gcd numerator denominator) numerator denominator
    .ok (if number.den < 0 then ⟨-number.num, -number.den⟩ else number)

def ofInt (value : Int) : Number :=
  ⟨value, 1⟩

def quotient (dividend divisor : Number) : Except NumberError Number :=
  ofFraction (dividend.num * divisor.den) (dividend.den * divisor.num)

def sign (number : Number) : Sign :=
  if number.num < 0 then .negative else if number.num = 0 then .zero else .positive

def isInteger (number : Number) : Bool :=
  number.den == 1

def isZero (number : Number) : Bool :=
  number.num == 0

def fitsWord (value : Int) : Bool :=
  -9223372036854775808 ≤ value && value < 9223372036854775808

/-- The value as an integer, if it is one that a signed 64-bit word holds. -/
def toWord? (number : Number) : Option Int :=
  if number.isInteger && fitsWord number.num then some number.num else none

/-- Integer part, truncated toward zero. -/
def integerPart (number : Number) : Int :=
  Int.tdiv number.num number.den

/-- Low eight bits of the magnitude of the integer part. -/
def lowOctet (number : Number) : UInt8 :=
  number.integerPart.natAbs.toUInt8

/-- An integer by its decimal digits, any other number as `numerator/denominator`. -/
def display (number : Number) : String :=
  if number.isInteger then Positional.signedDecimal number.num
  else Positional.signedDecimal number.num ++ "/" ++ Positional.signedDecimal number.den

/-- Real and imaginary part; the sign of a negative imaginary part joins the two. -/
def displayComplex (re im : Number) : String :=
  re.display ++ (if im.sign = .negative then "" else "+") ++ im.display ++ "i"

end Number

end Calculator
