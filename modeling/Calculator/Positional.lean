/-!
# Positional digits

Digits of natural numbers in any base, least significant first. `digits` halves the number again
and again, so that a number of a million digits costs few long divisions; `value` reads a digit
list back, and pairs the digits again and again, so that it costs few long multiplications.
`value_eq` says that this is the sum digit by digit.
-/

namespace Calculator.Positional

def sum (base : Nat) (digits : List Nat) : Nat :=
  digits.foldr (fun digit rest => digit + base * rest) 0

/-- Neighbours joined to digits in the square of the base. -/
def pairs (base : Nat) : List Nat → List Nat
  | low :: high :: rest => (low + base * high) :: pairs base rest
  | [digit] => [digit]
  | [] => []

def pairedValue : Nat → Nat → List Nat → Nat
  | 0, base, digits => sum base digits
  | levels + 1, base, digits => pairedValue levels (base * base) (pairs base digits)

def value (base : Nat) (digits : List Nat) : Nat :=
  pairedValue (Nat.log2 digits.length) base digits

/-- The lowest `2 ^ level` digits of `number`, least significant first, in front of `rest`. -/
def lowDigits (base : Nat) : Nat → Nat → List Nat → List Nat
  | 0, number, rest => number % base :: rest
  | level + 1, number, rest =>
      let half := Nat.pow base (Nat.pow 2 level)
      lowDigits base level (number % half) (lowDigits base level (number / half) rest)

/-- The first level from `level` on whose digits hold `number`, within `fuel` tries. -/
def levelFrom (base number : Nat) : Nat → Nat → Nat
  | 0, level => level
  | fuel + 1, level =>
      if number < Nat.pow base (Nat.pow 2 level) then level else levelFrom base number fuel (level + 1)

def levelFor (base number : Nat) : Nat :=
  levelFrom base number (Nat.log2 (Nat.log2 number + 1) + 1) 0

def dropHighZeros (digits : List Nat) : List Nat :=
  (digits.reverse.dropWhile (· == 0)).reverse

def digits (base number : Nat) : List Nat :=
  dropHighZeros (lowDigits base (levelFor base number) number [])

def decimal (number : Nat) : String :=
  if number = 0 then "0" else
    String.ofList ((digits 10 number).reverse.map fun digit => Char.ofNat ('0'.toNat + digit))

def signedDecimal (number : Int) : String :=
  if number < 0 then "-" ++ decimal number.natAbs else decimal number.natAbs

def column (width number : Nat) : String :=
  String.ofList (List.replicate (width - (decimal number).length) ' ') ++ decimal number

theorem sum_cons (base digit : Nat) (rest : List Nat) :
    sum base (digit :: rest) = digit + base * sum base rest := rfl

theorem sum_pairs (base : Nat) (digits : List Nat) :
    sum (base * base) (pairs base digits) = sum base digits := by
  fun_induction pairs base digits with
  | case1 low high rest ih =>
      simp only [sum_cons, ih, Nat.mul_add, Nat.mul_assoc, Nat.add_assoc]
  | case2 digit => rfl
  | case3 => rfl

theorem pairedValue_eq (levels base : Nat) (digits : List Nat) :
    pairedValue levels base digits = sum base digits := by
  induction levels generalizing base digits with
  | zero => rfl
  | succ levels ih => rw [pairedValue, ih, sum_pairs]

theorem value_eq (base : Nat) (digits : List Nat) : value base digits = sum base digits :=
  pairedValue_eq _ base digits

end Calculator.Positional
