import Calculator.Positional
import Mathlib.Data.List.DropRight
import Mathlib.Data.Nat.Digits.Lemmas

/-!
# Numerals

The digits that a number is taken apart into are the digits that it has in the base, however they are
found; and read back they give the number.
-/

namespace Calculator.Positional

theorem sum_eq_ofDigits (base : Nat) (digits : List Nat) :
    sum base digits = Nat.ofDigits base digits :=
  (Nat.ofDigits_eq_foldr base digits).symm

theorem ofDigits_lowDigits (base level number : Nat) (rest : List Nat) :
    Nat.ofDigits base (lowDigits base level number rest)
      = number % base ^ 2 ^ level + base ^ 2 ^ level * Nat.ofDigits base rest := by
  induction level generalizing number rest with
  | zero => simp only [lowDigits, Nat.ofDigits_cons, Nat.pow_zero, Nat.pow_one]
  | succ level ih =>
      have halves : base ^ 2 ^ (level + 1) = base ^ 2 ^ level * base ^ 2 ^ level := by
        rw [← Nat.pow_add, Nat.pow_succ, Nat.mul_two]
      simp only [lowDigits, Nat.pow_eq, ih, Nat.mod_mod]
      rw [halves, Nat.mod_mul, Nat.mul_add, Nat.mul_assoc, Nat.add_assoc]

theorem lowDigits_lt {base : Nat} (positive : 0 < base) (level number : Nat) {rest : List Nat}
    (small : ∀ digit ∈ rest, digit < base) :
    ∀ digit ∈ lowDigits base level number rest, digit < base := by
  induction level generalizing number rest with
  | zero =>
      intro digit member
      rcases List.mem_cons.mp member with rfl | behind
      · exact Nat.mod_lt number positive
      · exact small digit behind
  | succ level ih => exact ih _ (ih _ small)

theorem lt_levelFrom {base number : Nat} (fuel level : Nat)
    (enough : number < base ^ 2 ^ (level + fuel)) :
    number < base ^ 2 ^ levelFrom base number fuel level := by
  induction fuel generalizing level with
  | zero => exact enough
  | succ fuel ih =>
      rw [levelFrom]
      split
      · assumption
      · exact ih (level + 1) (by rwa [Nat.add_right_comm, Nat.add_assoc])

theorem lt_levelFor {base : Nat} (large : 1 < base) (number : Nat) :
    number < base ^ 2 ^ levelFor base number := by
  apply lt_levelFrom
  rw [Nat.zero_add]
  calc number
      < 2 ^ (Nat.log2 number + 1) := Nat.lt_log2_self
    _ ≤ 2 ^ 2 ^ (Nat.log2 (Nat.log2 number + 1) + 1) :=
        Nat.pow_le_pow_right (by decide) (Nat.le_of_lt Nat.lt_log2_self)
    _ ≤ base ^ 2 ^ (Nat.log2 (Nat.log2 number + 1) + 1) := Nat.pow_le_pow_left large _

theorem dropHighZeros_eq (digits : List Nat) : dropHighZeros digits = digits.rdropWhile (· == 0) := rfl

theorem ofDigits_dropHighZeros (base : Nat) (digits : List Nat) :
    Nat.ofDigits base (dropHighZeros digits) = Nat.ofDigits base digits := by
  have zeros : digits.rtakeWhile (· == 0)
      = List.replicate (digits.rtakeWhile (· == 0)).length 0 := by
    rw [List.eq_replicate_length]
    intro digit member
    exact eq_of_beq (List.mem_rtakeWhile_imp (p := (· == 0)) member)
  have parts := List.rdropWhile_append_rtakeWhile (p := (· == 0)) (l := digits)
  rw [zeros] at parts
  rw [dropHighZeros_eq, ← Nat.ofDigits_append_replicate_zero (digits.rdropWhile (· == 0)), parts]

theorem digits_eq {base : Nat} (large : 1 < base) (number : Nat) :
    digits base number = Nat.digits base number := by
  have small : ∀ digit ∈ digits base number, digit < base := by
    intro digit member
    have found := (List.rdropWhile_prefix _ _).subset member
    exact lowDigits_lt (Nat.zero_lt_of_lt large) _ number (List.forall_mem_nil _) digit found
  have high : ∀ nonempty : digits base number ≠ [], (digits base number).getLast nonempty ≠ 0 := by
    intro nonempty
    have nonzero := List.rdropWhile_last_not (· == 0) _ nonempty
    exact mt beq_iff_eq.mpr nonzero
  have value : Nat.ofDigits base (digits base number) = number := by
    rw [digits, ofDigits_dropHighZeros, ofDigits_lowDigits, Nat.ofDigits_nil, Nat.mul_zero,
      Nat.add_zero, Nat.mod_eq_of_lt (lt_levelFor large number)]
  -- Digits below the base without a high zero are those of the number that they spell.
  rw [← Nat.digits_ofDigits base large _ small high, value]

end Calculator.Positional
