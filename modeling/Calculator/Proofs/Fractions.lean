import Calculator.Number.Digits
import Mathlib.Data.Rat.Lemmas
import Mathlib.Tactic.Ring

/-!
# Numbers as rationals

A number in canonical form is the terms of one rational. The two ways of making a number from other
terms divide what these have in common, and so they give the terms of the rational that is asked for.
-/

namespace Calculator.Number

/-- In lowest terms, with a positive denominator. -/
structure Canonical (number : Number) : Prop where
  positive : 0 < number.den
  coprime : Int.gcd number.num number.den = 1

def toRat (number : Number) : ℚ :=
  Rat.divInt number.num number.den

def ofRat (value : ℚ) : Number :=
  ⟨value.num, value.den⟩

theorem ofRat_canonical (value : ℚ) : (ofRat value).Canonical :=
  ⟨Int.natCast_pos.mpr value.den_pos, value.reduced⟩

theorem toRat_ofRat (value : ℚ) : (ofRat value).toRat = value :=
  value.num_divInt_den

theorem ofRat_injective : Function.Injective ofRat :=
  Function.LeftInverse.injective toRat_ofRat

theorem Canonical.ofRat_toRat {number : Number} (canonical : number.Canonical) :
    ofRat number.toRat = number := by
  have above := Rat.num_divInt number.num number.den
  have below := Rat.den_divInt number.num number.den
  rw [Int.gcd_comm, canonical.coprime] at above
  rw [if_neg (Int.ne_of_gt canonical.positive), Int.gcd_comm, canonical.coprime, Nat.div_one] at below
  rw [Int.sign_eq_one_of_pos canonical.positive, Int.one_mul, Int.natCast_one, Int.ediv_one] at above
  rw [ofRat, toRat, above, below, Int.natAbs_of_nonneg (Int.le_of_lt canonical.positive)]

theorem toRat_eq_divInt {number : Number} {p q : Int} (positive : 0 < number.den) (proper : q ≠ 0)
    (equal : number.num * q = p * number.den) : number.toRat = Rat.divInt p q :=
  (Rat.divInt_eq_divInt_iff (Int.ne_of_gt positive) proper).mpr equal

section Division

variable {numerator denominator : Int}

/-- What is left of two terms without their greatest divisor is coprime, and the divisor times that is
the terms again. -/
theorem divided_gcd (proper : denominator ≠ 0) :
    ∃ above below divisor, divided (Int.gcd numerator denominator) numerator denominator = ⟨above, below⟩
      ∧ Int.gcd above below = 1 ∧ 0 < divisor ∧ numerator = divisor * above
      ∧ denominator = divisor * below := by
  have common : 0 < Int.gcd numerator denominator := Int.gcd_pos_of_ne_zero_right _ proper
  have positive : 0 < (Int.gcd numerator denominator : Int) := Int.natCast_pos.mpr common
  obtain ⟨above, numerators⟩ := Int.gcd_dvd_left numerator denominator
  obtain ⟨below, denominators⟩ := Int.gcd_dvd_right numerator denominator
  refine ⟨above, below, Int.gcd numerator denominator, ?_, ?_, positive, numerators, denominators⟩
  · rw [divided]
    split
    · rename_i alone
      rw [alone, Int.natCast_one, Int.one_mul] at numerators denominators
      rw [numerators, denominators]
    · rw [Int.tdiv_eq_of_eq_mul_right (Int.ne_of_gt positive) numerators,
        Int.tdiv_eq_of_eq_mul_right (Int.ne_of_gt positive) denominators]
  · have divisors := congrArg₂ Int.gcd numerators denominators
    rw [Int.gcd_mul_left, Int.natAbs_natCast] at divisors
    exact (Nat.eq_of_mul_eq_mul_left common (by rw [Nat.mul_one]; exact divisors)).symm

theorem ofFraction_eq (proper : denominator ≠ 0) :
    ofFraction numerator denominator = .ok (ofRat (Rat.divInt numerator denominator)) := by
  obtain ⟨above, below, divisor, left, coprime, positive, rfl, rfl⟩ :=
    @divided_gcd numerator denominator proper
  have nonzero : below ≠ 0 := right_ne_zero_of_mul proper
  have shared : Rat.divInt (divisor * above) (divisor * below) = Rat.divInt above below :=
    Rat.divInt_mul_left (Int.ne_of_gt positive)
  rw [ofFraction, if_neg proper, left, shared]
  dsimp only
  congr 1
  split
  · rename_i negative
    have canonical : Canonical ⟨-above, -below⟩ :=
      ⟨Int.neg_pos_of_neg negative, by rw [Int.gcd_neg, Int.neg_gcd, coprime]⟩
    rw [← Rat.neg_divInt_neg]
    exact canonical.ofRat_toRat.symm
  · rename_i upright
    have canonical : Canonical ⟨above, below⟩ := ⟨lt_of_le_of_ne (Int.not_lt.mp upright) nonzero.symm, coprime⟩
    exact canonical.ofRat_toRat.symm

theorem ofInt_eq (value : Int) : ofInt value = ofRat value :=
  rfl

theorem divided_positive (positive : 0 < denominator) :
    divided (Int.gcd numerator denominator) numerator denominator
      = ofRat (Rat.divInt numerator denominator) := by
  have made := @ofFraction_eq numerator denominator (Int.ne_of_gt positive)
  obtain ⟨above, below, divisor, left, _, greater, _, product⟩ :=
    @divided_gcd numerator denominator (Int.ne_of_gt positive)
  have upright : ¬ below < 0 := by
    intro negative
    have turned := Int.mul_neg_of_pos_of_neg greater negative
    omega
  rw [ofFraction, if_neg (Int.ne_of_gt positive), left] at made
  dsimp only at made
  rw [if_neg upright] at made
  rw [left]
  exact Except.ok.inj made

end Division

end Calculator.Number
