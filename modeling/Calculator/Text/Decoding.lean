import Calculator.Bytes

/-!
# Reading bytes as characters

Texts hold arbitrary bytes. To show one, or to use it as a name, its bytes are read as UTF-8, and
every longest stretch that begins a character without completing it is shown as U+FFFD.
-/

namespace Calculator.Text

def replacement : Char := Char.ofNat 0xFFFD

def isContinuation (byte : UInt8) : Bool :=
  0x80 ≤ byte && byte ≤ 0xBF

/-- The second bytes that may follow `lead` in a character of three bytes. -/
def secondOfThree (lead second : UInt8) : Bool :=
  if lead == 0xE0 then 0xA0 ≤ second && second ≤ 0xBF
  else if lead == 0xED then 0x80 ≤ second && second ≤ 0x9F
  else isContinuation second

/-- The second bytes that may follow `lead` in a character of four bytes. -/
def secondOfFour (lead second : UInt8) : Bool :=
  if lead == 0xF0 then 0x90 ≤ second && second ≤ 0xBF
  else if lead == 0xF4 then 0x80 ≤ second && second ≤ 0x8F
  else isContinuation second

def charOfTwo (a b : UInt8) : Char :=
  Char.ofNat ((a.toNat % 32) * 64 + b.toNat % 64)

def charOfThree (a b c : UInt8) : Char :=
  Char.ofNat ((a.toNat % 16) * 4096 + (b.toNat % 64) * 64 + c.toNat % 64)

def charOfFour (a b c d : UInt8) : Char :=
  Char.ofNat ((a.toNat % 8) * 262144 + (b.toNat % 64) * 4096 + (c.toNat % 64) * 64 + d.toNat % 64)

/-- The first character of a byte string that starts with `lead`, and how many bytes of `rest` it
takes. A stretch that breaks off takes the bytes that could still have led to a character. -/
def firstChar (lead : UInt8) (rest : Bytes) : Char × Nat :=
  if lead < 0x80 then (Char.ofNat lead.toNat, 0)
  else if 0xC2 ≤ lead && lead ≤ 0xDF then
    match rest with
    | b :: _ => if isContinuation b then (charOfTwo lead b, 1) else (replacement, 0)
    | [] => (replacement, 0)
  else if 0xE0 ≤ lead && lead ≤ 0xEF then
    match rest with
    | b :: c :: _ =>
        if secondOfThree lead b then
          if isContinuation c then (charOfThree lead b c, 2) else (replacement, 1)
        else (replacement, 0)
    | [b] => (replacement, if secondOfThree lead b then 1 else 0)
    | [] => (replacement, 0)
  else if 0xF0 ≤ lead && lead ≤ 0xF4 then
    match rest with
    | b :: c :: d :: _ =>
        if secondOfFour lead b then
          if isContinuation c then
            if isContinuation d then (charOfFour lead b c d, 3) else (replacement, 2)
          else (replacement, 1)
        else (replacement, 0)
    | [b, c] =>
        (replacement, if secondOfFour lead b then if isContinuation c then 2 else 1 else 0)
    | [b] => (replacement, if secondOfFour lead b then 1 else 0)
    | [] => (replacement, 0)
  else (replacement, 0)

/-- Decodes the rest of a text in front of the characters found so far, last found first. -/
def decodeOnto (found : List Char) : Bytes → List Char
  | [] => found.reverse
  | lead :: rest =>
      decodeOnto ((firstChar lead rest).1 :: found) (rest.drop (firstChar lead rest).2)
termination_by bytes => bytes.length
decreasing_by
  simp only [List.length_drop, List.length_cons]
  omega

def decode (bytes : Bytes) : String :=
  String.ofList (decodeOnto [] bytes)

end Calculator.Text
