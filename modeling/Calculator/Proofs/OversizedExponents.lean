import Calculator.Proofs.LiteralGrammar

/-!
# Oversized exponents

A decimal literal whose point moves too far is refused. What it is refused as depends on its exponent
alone: one that fits into a word is called too big, and one that does not is called malformed, although
every other part of the literal is in order.
-/

namespace Calculator.Number

/-- A decimal literal with blanks around it, the digits behind its point, and its exponent. -/
inductive Decimal : List Char → Nat → Int → Prop where
  | literal {front text back mantissa digits suffix : List Char} {negative : Bool} {places : Nat}
      {exponent : Int} (before : ∀ char ∈ front, Text.isBlank char = true)
      (behind : ∀ char ∈ back, Text.isBlank char = true)
      (signed : Signed text negative (mantissa ++ suffix)) (form : Mantissa mantissa digits places)
      (spells : Digits 10 digits) (power : Power suffix exponent) :
      Decimal (front ++ text ++ back) places exponent

/-- A point that moves too far is refused for its exponent, or for the exponent's length. -/
theorem Decimal.refused {literal : List Char} {places : Nat} {exponent : Int}
    (decimal : Decimal literal places exponent) (far : 1000000 < |exponent - places|) :
    parseChars literal
      = if fitsWord exponent then .error (.exponentTooBig (String.ofList literal))
        else .error (.malformed (String.ofList literal)) := by
  cases decimal with
  | literal before behind signed form spells power =>
      have body := List.forall_mem_append.mpr ⟨form.solid spells, power.solid⟩
      have inside := signed.solid body
      have trimmed := trim_solid before behind inside
      have unsigned := (Magnitude.decimal form spells power).unsigned
      rw [← trimmed] at signed
      have away : ¬ (exponent - places).natAbs ≤ maxExponent := mt near_iff.mp (Int.not_le.mpr far)
      rw [parseChars_undivided (by rw [trimmed]; exact undivided_of_solid inside),
        parseSimple_eq signed unsigned,
        unsignedTerms_unannounced _ fun _ _ => form.unannounced spells power,
        decimal_of_form _ form spells power, if_neg away]
      cases fitsWord exponent <;> rfl

/-- A decimal literal whose point moves too far is refused as one with too big an exponent exactly when
the exponent fits into a word; else it passes for malformed. -/
theorem oversized_exponents_are_told_apart {text : String} {places : Nat} {exponent : Int}
    (decimal : Decimal text.toList places exponent) (far : 1000000 < |exponent - places|) :
    (parse text = .error (.exponentTooBig text) ↔ WordSized exponent)
      ∧ (parse text = .error (.malformed text) ↔ ¬ WordSized exponent) := by
  rw [parse, decimal.refused far, String.ofList_toList, ← fitsWord_iff]
  by_cases fits : fitsWord exponent = true
  · rw [if_pos fits]
    exact ⟨iff_of_true rfl fits, iff_of_false nofun (not_not.mpr fits)⟩
  · rw [if_neg fits]
    exact ⟨iff_of_false nofun fits, iff_of_true rfl fits⟩

namespace ExponentSample

/-- The largest exponent that fits into a word, and the first below all that do. -/
theorem limits_of_words_tell_apart :
    Decimal "-.5E+9223372036854775807".toList 1 9223372036854775807
      ∧ 1000000 < |(9223372036854775807 : Int) - (1 : Nat)|
      ∧ parse "-.5E+9223372036854775807" = .error (.exponentTooBig "-.5E+9223372036854775807")
      ∧ Decimal " 2e-9223372036854775809".toList 0 (-9223372036854775809)
      ∧ 1000000 < |(-9223372036854775809 : Int) - (0 : Nat)|
      ∧ parse " 2e-9223372036854775809" = .error (.malformed " 2e-9223372036854775809") := by
  have five : Digits 10 ['5'] := by decide
  have two : Digits 10 ['2'] := by decide
  have high : Digits 10 "9223372036854775807".toList := by decide
  have low : Digits 10 "9223372036854775809".toList := by decide
  have blank : ∀ char ∈ [' '], Text.isBlank char = true := List.forall_mem_singleton.mpr rfl
  have largest : Decimal "-.5E+9223372036854775807".toList 1 9223372036854775807 :=
    .literal blankless blankless (.minus _) (.pointed [] ['5']) five
      (.marked (.inr rfl) (.plus _) high)
  have below : Decimal " 2e-9223372036854775809".toList 0 (-9223372036854775809) :=
    .literal blank blankless (.plain _) (.whole ['2']) two (.marked (.inl rfl) (.minus _) low)
  have far_up : 1000000 < |(9223372036854775807 : Int) - (1 : Nat)| := by decide
  have far_down : 1000000 < |(-9223372036854775809 : Int) - (0 : Nat)| := by decide
  have fits : WordSized 9223372036854775807 := by decide
  have beyond : ¬ WordSized (-9223372036854775809) := by decide
  exact ⟨largest, far_up, (oversized_exponents_are_told_apart largest far_up).1.mpr fits, below,
    far_down, (oversized_exponents_are_told_apart below far_down).2.mpr beyond⟩

/-- One more than the largest exponent that fits into a word is not called too big. -/
theorem long_exponent_is_malformed :
    Decimal "1e9223372036854775808".toList 0 9223372036854775808
      ∧ 1000000 < |(9223372036854775808 : Int) - (0 : Nat)|
      ∧ parse "1e9223372036854775808" ≠ .error (.exponentTooBig "1e9223372036854775808")
      ∧ parse "1e9223372036854775808" = .error (.malformed "1e9223372036854775808") := by
  have one : Digits 10 ['1'] := by decide
  have power : Digits 10 "9223372036854775808".toList := by decide
  have literal : Decimal "1e9223372036854775808".toList 0 9223372036854775808 :=
    .literal blankless blankless (.plain _) (.whole ['1']) one (.marked (.inl rfl) (.plain _) power)
  have far : 1000000 < |(9223372036854775808 : Int) - (0 : Nat)| := by decide
  have answer : parse "1e9223372036854775808" = .error (.malformed "1e9223372036854775808") := by
    rw [parse, literal.refused far, String.ofList_toList]
    rfl
  refine ⟨literal, far, ?_, answer⟩
  rw [answer]
  simp

end ExponentSample

end Calculator.Number
