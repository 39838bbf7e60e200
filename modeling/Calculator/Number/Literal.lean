import Calculator.Number.Basic
import Calculator.Text.Blank

/-!
# Numeric literals

A literal is a decimal number with optional fraction and exponent, a hexadecimal or binary integer,
or a quotient of literals. Blanks around each part are ignored; quotients group to the right.
-/

namespace Calculator.Number

/-- Largest distance of the decimal point that a literal may ask for. -/
def maxExponent : Nat := 1000000

def digitValue? (char : Char) : Option Nat :=
  if '0' ≤ char && char ≤ '9' then some (char.toNat - '0'.toNat)
  else if 'a' ≤ char && char ≤ 'f' then some (char.toNat - 'a'.toNat + 10)
  else if 'A' ≤ char && char ≤ 'F' then some (char.toNat - 'A'.toNat + 10)
  else none

def isDigit (radix : Nat) (char : Char) : Bool :=
  match digitValue? char with
  | some digit => digit < radix
  | none => false

/-- The number that digits in `radix` spell, most significant first. -/
def ofDigits (radix : Nat) (chars : List Char) : Nat :=
  Positional.value radix (chars.reverse.map fun char => (digitValue? char).getD 0)

def natural? (radix : Nat) (chars : List Char) : Option Nat :=
  if chars.isEmpty || !chars.all (isDigit radix) then none else some (ofDigits radix chars)

def splitSign : List Char → Bool × List Char
  | '-' :: rest => (true, rest)
  | '+' :: rest => (false, rest)
  | chars => (false, chars)

def applySign (negative : Bool) (magnitude : Nat) : Int :=
  if negative then -(magnitude : Int) else magnitude

/-- An optionally signed decimal exponent that a signed 64-bit word holds. -/
def exponent? (chars : List Char) : Option Int :=
  match natural? 10 (splitSign chars).2 with
  | some magnitude =>
      let exponent := applySign (splitSign chars).1 magnitude
      if fitsWord exponent then some exponent else none
  | none => none

/-- What stands before the first character that satisfies `stop`, and what stands after it. -/
def cut (stop : Char → Bool) (chars : List Char) : List Char × Option (List Char) :=
  match chars.dropWhile (fun char => !stop char) with
  | [] => (chars.takeWhile (fun char => !stop char), none)
  | _ :: rest => (chars.takeWhile (fun char => !stop char), some rest)

/-- Numerator and denominator of `digits * 10 ^ scale`. -/
def scaled (digits : Nat) (scale : Int) : Nat × Nat :=
  if 0 ≤ scale then (digits * Nat.pow 10 scale.toNat, 1) else (digits, Nat.pow 10 (-scale).toNat)

/-- Numerator and denominator of a decimal body: digits with at most one point, then an optional
exponent. -/
def decimal (literal body : List Char) : Except NumberError (Nat × Nat) :=
  let malformed : Except NumberError (Nat × Nat) := .error (.malformed (String.ofList literal))
  let tooBig : Except NumberError (Nat × Nat) := .error (.exponentTooBig (String.ofList literal))
  let mantissa := (cut (fun char => char == 'e' || char == 'E') body).1
  let power := (cut (fun char => char == 'e' || char == 'E') body).2
  let whole := (cut (· == '.') mantissa).1
  let fraction := (cut (· == '.') mantissa).2.getD []
  match natural? 10 (whole ++ fraction), power.map exponent? with
  | none, _ => malformed
  | some _, some none => malformed
  | some digits, some (some exponent) =>
      let scale := exponent - fraction.length
      if scale.natAbs ≤ maxExponent then .ok (scaled digits scale) else tooBig
  | some digits, none =>
      if fraction.length ≤ maxExponent then .ok (scaled digits (-(fraction.length : Int))) else tooBig

/-- Numerator and denominator of a literal without its sign. -/
def unsignedTerms (literal body : List Char) : Except NumberError (Nat × Nat) :=
  let integer (radix : Nat) (chars : List Char) : Except NumberError (Nat × Nat) :=
    match natural? radix chars with
    | some magnitude => .ok (magnitude, 1)
    | none => .error (.malformed (String.ofList literal))
  match body with
  | '0' :: 'x' :: rest => integer 16 rest
  | '0' :: 'X' :: rest => integer 16 rest
  | '0' :: 'b' :: rest => integer 2 rest
  | '0' :: 'B' :: rest => integer 2 rest
  | body => decimal literal body

def parseSimple (literal : List Char) : Except NumberError Number := do
  let (negative, body) := splitSign (Text.trim literal)
  let (numerator, denominator) ← unsignedTerms literal body
  ofFraction (applySign negative numerator) denominator

/-- A literal as characters. What stands before the first `/` is divided by what stands after it. -/
def parseChars (literal : List Char) : Except NumberError Number :=
  match _found : (Text.trim literal).dropWhile (· != '/') with
  | [] => parseSimple literal
  | _ :: right => do
      let dividend ← parseSimple ((Text.trim literal).takeWhile (· != '/'))
      let divisor ← parseChars right
      dividend.quotient divisor
termination_by literal.length
decreasing_by
  have shorter := (List.dropWhile_sublist (l := Text.trim literal) (· != '/')).length_le
  have trimmed := Text.trim_length_le literal
  rw [_found] at shorter
  simp only [List.length_cons] at shorter
  omega

def parse (literal : String) : Except NumberError Number :=
  parseChars literal.toList

end Calculator.Number
