/-!
# Blank characters

The characters that count as white space around a numeric literal: every character with the
White_Space property of Unicode.
-/

namespace Calculator.Text

def blankRanges : List (Nat × Nat) :=
  [(0x0009, 0x000D), (0x0020, 0x0020), (0x0085, 0x0085), (0x00A0, 0x00A0), (0x1680, 0x1680),
   (0x2000, 0x200A), (0x2028, 0x2029), (0x202F, 0x202F), (0x205F, 0x205F), (0x3000, 0x3000)]

def isBlank (char : Char) : Bool :=
  blankRanges.any fun (low, high) => low ≤ char.toNat && char.toNat ≤ high

def trim (chars : List Char) : List Char :=
  ((chars.dropWhile isBlank).reverse.dropWhile isBlank).reverse

theorem trim_length_le (chars : List Char) : (trim chars).length ≤ chars.length := by
  have outer := (List.dropWhile_sublist (l := (chars.dropWhile isBlank).reverse) isBlank).length_le
  have inner := (List.dropWhile_sublist (l := chars) isBlank).length_le
  simp only [List.length_reverse] at outer
  simp only [trim, List.length_reverse]
  omega

end Calculator.Text
