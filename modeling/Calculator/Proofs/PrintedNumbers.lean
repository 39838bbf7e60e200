import Calculator.Proofs.LiteralGrammar
import Calculator.Proofs.Numerals

/-!
# Printed numbers

A number is printed as a literal of itself, with no exponent and with no limit on its digits, so it is
read back whatever it is. Two literals are therefore printed alike exactly when they denote one
rational.
-/

namespace Calculator.Number

section Digits

theorem digit_char {digit : Nat} (small : digit < 10) :
    digitValue? (Char.ofNat ('0'.toNat + digit)) = some digit := by
  revert digit
  decide

theorem decimal_spells (number : Nat) :
    Digits 10 (Positional.decimal number).toList
      ∧ spelled 10 (Positional.decimal number).toList = number := by
  rw [Positional.decimal]
  split
  · rename_i zero
    exact ⟨by decide, zero.symm⟩
  · rename_i nonzero
    have small : ∀ digit ∈ Nat.digits 10 number, digit < 10 :=
      fun digit member => Nat.digits_lt_base (by decide) member
    rw [String.toList_ofList, Positional.digits_eq (by decide), List.map_reverse]
    refine ⟨⟨?_, ?_⟩, ?_⟩
    · rw [Ne, List.reverse_eq_nil_iff, List.map_eq_nil_iff, Nat.digits_eq_nil_iff_eq_zero]
      exact nonzero
    · intro char member
      obtain ⟨digit, inside, rfl⟩ := List.mem_map.mp (List.mem_reverse.mp member)
      rw [isDigit, digit_char (small digit inside)]
      exact decide_eq_true (small digit inside)
    · have values : (Nat.digits 10 number).map
            (fun digit => (digitValue? (Char.ofNat ('0'.toNat + digit))).getD 0)
          = (Nat.digits 10 number).map id := by
        apply List.map_congr_left
        intro digit member
        rw [digit_char (small digit member), Option.getD_some, id]
      rw [← ofDigits_eq, ofDigits, List.reverse_reverse, List.map_map, Function.comp_def, values,
        List.map_id, Positional.value_eq, Positional.sum_eq_ofDigits, Nat.ofDigits_digits]

end Digits

section Display

variable {admits : Int → Prop}

theorem signedDecimal_signed (number : Int) :
    Signed (Positional.signedDecimal number).toList (decide (number < 0))
      (Positional.decimal number.natAbs).toList := by
  rw [Positional.signedDecimal]
  split
  · rename_i negative
    rw [decide_eq_true negative, String.toList_append]
    exact .minus _
  · rename_i positive
    rw [decide_eq_false positive]
    exact .plain _

theorem withSign_natAbs (number : Int) :
    withSign (decide (number < 0)) number.natAbs = number := by
  rw [← applySign_eq, applySign_natAbs]

theorem signedDecimal_literal (still : admits 0) (number : Int) :
    Literal admits (Positional.signedDecimal number).toList number := by
  obtain ⟨spells, value⟩ := decimal_spells number.natAbs
  have simple := Simple.decimal (.whole _) spells .absent still (by decide)
  have signed := signedDecimal_signed number
  rw [← List.append_nil (Positional.decimal number.natAbs).toList] at signed
  have literal := Literal.simple blankless blankless signed simple
  rw [value, Int.natCast_zero, Int.sub_zero, zpow_zero, mul_one, withSign_natAbs,
    List.nil_append, List.append_nil] at literal
  exact literal

theorem display_literal (still : admits 0) {number : Number} (proper : number.den ≠ 0) :
    Literal admits number.display.toList number.toRat := by
  rw [display, toRat]
  split
  · rename_i integer
    rw [eq_of_beq integer, Rat.divInt_one]
    exact signedDecimal_literal still number.num
  · have undivided : '/' ∉ (Positional.signedDecimal number.num).toList :=
      undivided_of_solid ((signedDecimal_signed number.num).solid (decimal_spells _).1.solid)
    have literal := Literal.quotient undivided (signedDecimal_literal still number.num)
      (signedDecimal_literal still number.den) (Int.cast_ne_zero.mpr proper)
    rw [← Rat.divInt_eq_div] at literal
    rw [String.toList_append, String.toList_append, List.append_assoc]
    exact literal

end Display

theorem parse_display {number : Number} (canonical : number.Canonical) :
    parse number.display = .ok number :=
  parseChars_ok_iff.mpr ⟨number.toRat, display_literal (by decide) (Int.ne_of_gt canonical.positive),
    canonical.ofRat_toRat.symm⟩

theorem display_eq_iff {left right : Number} (one : left.Canonical) (two : right.Canonical) :
    left.display = right.display ↔ left = right := by
  refine ⟨fun same => ?_, fun same => same ▸ rfl⟩
  have read := parse_display one
  rw [same, parse_display two] at read
  exact (Except.ok.inj read).symm

theorem parse_canonical {text : String} {number : Number} (read : parse text = .ok number) :
    number.Canonical := by
  obtain ⟨value, _, rfl⟩ := parseChars_ok_iff.mp read
  exact ofRat_canonical value

/-- A number is read back from what is printed, also one that was read from a literal; and two literals
are printed alike exactly when they denote one rational. All numbers that are made are canonical
(`Produced.canonical`). -/
theorem printed_numbers_are_read_back :
    (∀ number : Number, number.Canonical → parse number.display = .ok number)
      ∧ (∀ text number, parse text = .ok number → parse number.display = parse text)
      ∧ ∀ one two left right p q r s, parse one = .ok left → parse two = .ok right →
          Denotes one.toList p q → Denotes two.toList r s →
          (left.display = right.display ↔ p * s = r * q) := by
  refine ⟨fun _ canonical => parse_display canonical, ?_, ?_⟩
  · intro text number read
    rw [read, parse_display (parse_canonical read)]
  · intro one two left right p q r s readOne readTwo denotesOne denotesTwo
    obtain ⟨proper, rfl⟩ := denotesOne.value readOne
    obtain ⟨also, rfl⟩ := denotesTwo.value readTwo
    rw [display_eq_iff (ofRat_canonical _) (ofRat_canonical _), ofRat_injective.eq_iff,
      Rat.divInt_eq_divInt_iff proper also]

/-- A decimal fraction and a quotient of one rational are printed alike. -/
theorem like_literals_print_alike :
    Canonical ⟨3, 4⟩ ∧ parse (display ⟨3, 4⟩) = .ok ⟨3, 4⟩
      ∧ parse "0.75" = .ok ⟨3, 4⟩ ∧ parse "-6/-8" = .ok ⟨3, 4⟩
      ∧ Denotes "0.75".toList 75 100 ∧ Denotes "-6/-8".toList (-6) (-8)
      ∧ parse (display ⟨3, 4⟩) = parse "0.75"
      ∧ (display ⟨3, 4⟩ = display ⟨3, 4⟩ ↔ (75 : Int) * -8 = -6 * 100) := by
  have canonical : Canonical ⟨3, 4⟩ := ⟨by decide, by decide⟩
  have decimal : parse "0.75" = .ok ⟨3, 4⟩ := parseChars_undivided (by decide)
  have seventyFive : Digits 10 ['0', '7', '5'] := by decide
  have six : Digits 10 ['6'] := by decide
  have eight : Digits 10 ['8'] := by decide
  have one : Denotes "0.75".toList 75 100 :=
    .simple (by decide) (.plain _) (.decimal (.pointed ['0'] ['7', '5']) seventyFive .absent)
  have undivided : '/' ∉ ['-', '6'] := by decide
  have minus_six : '/' ∉ Text.trim ['-', '6'] := by decide
  have minus_eight : '/' ∉ Text.trim ['-', '8'] := by decide
  have above : Denotes ['-', '6'] (-6) 1 :=
    .simple minus_six (.minus _) (.decimal (.whole ['6']) six .absent)
  have below : Denotes ['-', '8'] (-8) 1 :=
    .simple minus_eight (.minus _) (.decimal (.whole ['8']) eight .absent)
  have two : Denotes "-6/-8".toList (-6) (-8) := .quotient rfl undivided above below
  have dividend : parseChars ['-', '6'] = .ok ⟨-6, 1⟩ := parseChars_undivided minus_six
  have divisor : parseChars ['-', '8'] = .ok ⟨-8, 1⟩ := parseChars_undivided minus_eight
  have quotient : parse "-6/-8" = .ok ⟨3, 4⟩ :=
    (@parseChars_divided_iff _ ['-', '6'] ['-', '8'] rfl undivided _).mpr
      ⟨_, _, dividend, divisor, rfl⟩
  exact ⟨canonical, printed_numbers_are_read_back.1 _ canonical, decimal, quotient, one, two,
    printed_numbers_are_read_back.2.1 _ _ decimal,
    printed_numbers_are_read_back.2.2 _ _ _ _ _ _ _ _ decimal quotient one two⟩

end Calculator.Number
