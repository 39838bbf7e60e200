import Calculator.Number.Literal
import Calculator.Proofs.Fractions
import Mathlib.Data.List.TakeWhile

/-!
# What literals denote

The grammar of numeric literals, with the fraction that each literal stands for. The fraction is what
the literal spells, before anything is reduced. A literal that is read has such a meaning, and the
number that is read is the value of every meaning it has.
-/

namespace Calculator.Number

def spelled (radix : Nat) (digits : List Char) : Nat :=
  digits.foldl (fun sum char => sum * radix + (digitValue? char).getD 0) 0

def Digits (radix : Nat) (chars : List Char) : Prop :=
  chars ≠ [] ∧ ∀ char ∈ chars, isDigit radix char = true

instance (radix : Nat) : DecidablePred (Digits radix) :=
  fun chars => decidable_of_iff (chars ≠ [] ∧ chars.all (isDigit radix) = true)
    (and_congr_right' List.all_eq_true)

/-- A text is a body with an optional sign before it; true means negative. -/
inductive Signed : List Char → Bool → List Char → Prop where
  | plain (body : List Char) : Signed body false body
  | plus (body : List Char) : Signed ('+' :: body) false body
  | minus (body : List Char) : Signed ('-' :: body) true body

/-- Digits with at most one point, and how many of them stand behind it. -/
inductive Mantissa : List Char → List Char → Nat → Prop where
  | whole (digits : List Char) : Mantissa digits digits 0
  | pointed (whole fraction : List Char) :
      Mantissa (whole ++ '.' :: fraction) (whole ++ fraction) fraction.length

/-- An optional decimal exponent. -/
inductive Power : List Char → Int → Prop where
  | absent : Power [] 0
  | marked {mark : Char} (marks : mark = 'e' ∨ mark = 'E') {text digits : List Char}
      {negative : Bool} (signed : Signed text negative digits) (spells : Digits 10 digits) :
      Power (mark :: text) (applySign negative (spelled 10 digits))

/-- The letters behind a zero that announce another radix. -/
def announces (mark : Char) : Option Nat :=
  if mark = 'x' ∨ mark = 'X' then some 16
  else if mark = 'b' ∨ mark = 'B' then some 2
  else none

/-- A literal without sign and blanks, with numerator and denominator. -/
inductive Magnitude : List Char → Nat → Nat → Prop where
  | announced {mark : Char} {radix : Nat} (marks : announces mark = some radix)
      {digits : List Char} (spells : Digits radix digits) :
      Magnitude ('0' :: mark :: digits) (spelled radix digits) 1
  | decimal {mantissa digits suffix : List Char} {places : Nat} {exponent : Int}
      (form : Mantissa mantissa digits places) (spells : Digits 10 digits)
      (power : Power suffix exponent) :
      Magnitude (mantissa ++ suffix) (spelled 10 digits * 10 ^ (exponent - places).toNat)
        (10 ^ (-(exponent - places)).toNat)

/-- A literal, blanks around its parts ignored, with numerator and denominator. Quotients group to the
right. -/
inductive Denotes : List Char → Int → Int → Prop where
  | simple {literal body : List Char} {negative : Bool} {numerator denominator : Nat}
      (undivided : '/' ∉ Text.trim literal) (signed : Signed (Text.trim literal) negative body)
      (magnitude : Magnitude body numerator denominator) :
      Denotes literal (applySign negative numerator) denominator
  | quotient {literal left right : List Char} {p q r s : Int}
      (divided : Text.trim literal = left ++ '/' :: right) (first : '/' ∉ left)
      (dividend : Denotes left p q) (divisor : Denotes right r s) :
      Denotes literal (p * s) (q * r)

section Readers

theorem ofDigits_eq (radix : Nat) (chars : List Char) : ofDigits radix chars = spelled radix chars := by
  rw [ofDigits, Positional.value_eq, Positional.sum, List.foldr_map, List.foldr_reverse, spelled]
  congr 1
  funext sum char
  rw [Nat.mul_comm, Nat.add_comm]

theorem natural?_eq_some_iff {radix : Nat} {chars : List Char} {value : Nat} :
    natural? radix chars = some value ↔ Digits radix chars ∧ value = spelled radix chars := by
  rw [natural?, Digits, ofDigits_eq]
  cases chars with
  | nil => simp
  | cons char rest =>
      by_cases all : (char :: rest).all (isDigit radix) = true
      · simp only [List.isEmpty_cons, all, Bool.not_true, Bool.or_self, Bool.false_eq_true, if_false,
          Option.some.injEq]
        have each := List.all_eq_true.mp all
        constructor
        · rintro rfl
          exact ⟨⟨List.cons_ne_nil _ _, each⟩, rfl⟩
        · rintro ⟨_, rfl⟩
          rfl
      · simp only [all, Bool.not_false, Bool.or_true, if_true]
        constructor
        · rintro ⟨⟩
        · rintro ⟨⟨_, each⟩, _⟩
          exact absurd (List.all_eq_true.mpr each) all

theorem splitSign_signed (chars : List Char) :
    Signed chars (splitSign chars).1 (splitSign chars).2 := by
  unfold splitSign
  split
  · exact .minus _
  · exact .plus _
  · exact .plain _

theorem Signed.splitSign {text body : List Char} {negative : Bool} (signed : Signed text negative body)
    (unsigned : ∀ char ∈ body.head?, char ≠ '-' ∧ char ≠ '+') :
    splitSign text = (negative, body) := by
  cases signed with
  | plus | minus => rfl
  | plain =>
      unfold Number.splitSign
      split
      · exact absurd rfl (unsigned _ rfl).1
      · exact absurd rfl (unsigned _ rfl).2
      · rfl

theorem cut_absent {stop : Char → Bool} {chars : List Char} (none : ∀ char ∈ chars, stop char = false) :
    cut stop chars = (chars, Option.none) := by
  have passes : ∀ char ∈ chars, (!stop char) = true := by
    intro char member
    rw [none char member]
    rfl
  rw [cut, List.dropWhile_eq_nil_iff.mpr passes, List.takeWhile_eq_self_iff.mpr passes]

theorem cut_append {stop : Char → Bool} {front rest : List Char} {mark : Char}
    (none : ∀ char ∈ front, stop char = false) (stops : stop mark = true) :
    cut stop (front ++ mark :: rest) = (front, some rest) := by
  have passes : ∀ char ∈ front, (!stop char) = true := by
    intro char member
    rw [none char member]
    rfl
  rw [cut, List.dropWhile_append_of_pos passes, List.takeWhile_append_of_pos passes,
    List.dropWhile_cons_of_neg (by simp [stops]), List.takeWhile_cons_of_neg (by simp [stops]),
    List.append_nil]

theorem cut_cases (stop : Char → Bool) (chars : List Char) :
    cut stop chars = (chars, none)
      ∨ ∃ front mark rest, chars = front ++ mark :: rest ∧ stop mark = true
          ∧ cut stop chars = (front, some rest) := by
  have parts := List.takeWhile_append_dropWhile (p := fun char => !stop char) (l := chars)
  cases found : chars.dropWhile (fun char => !stop char) with
  | nil =>
      rw [found, List.append_nil] at parts
      refine .inl ?_
      rw [cut, found, parts]
  | cons mark rest =>
      have stops : stop mark = true := by
        have head := List.head_dropWhile_not (fun char => !stop char) (l := chars) (by simp [found])
        simpa [found] using head
      rw [found] at parts
      refine .inr ⟨_, mark, rest, parts.symm, stops, ?_⟩
      rw [cut, found]

end Readers

section Decimals

theorem applySign_mul (negative : Bool) (magnitude factor : Nat) :
    applySign negative (magnitude * factor) = applySign negative magnitude * factor := by
  cases negative with
  | false => exact Int.natCast_mul magnitude factor
  | true => exact (congrArg Neg.neg (Int.natCast_mul magnitude factor)).trans (Int.neg_mul _ _).symm

theorem applySign_natAbs (value : Int) : applySign (decide (value < 0)) value.natAbs = value := by
  rw [applySign]
  split
  · rename_i negative
    have below := of_decide_eq_true negative
    omega
  · rename_i positive
    have above := mt decide_eq_true positive
    omega

theorem scaled_eq (magnitude : Nat) (scale : Int) :
    scaled magnitude scale = (magnitude * 10 ^ scale.toNat, 10 ^ (-scale).toNat) := by
  rw [scaled]
  split
  · rename_i up
    rw [Int.toNat_of_nonpos (Int.neg_nonpos_of_nonneg up)]
    rfl
  · rename_i down
    rw [Int.toNat_of_nonpos (by omega : scale ≤ 0), Nat.pow_zero, Nat.mul_one]
    rfl

theorem Digits.free {radix : Nat} {chars : List Char} (spells : Digits radix chars) {other : Char}
    (no : isDigit radix other = false) : ∀ char ∈ chars, (char == other) = false := by
  intro char member
  rw [beq_eq_false_iff_ne]
  rintro rfl
  rw [spells.2 char member] at no
  cases no

theorem Mantissa.chars {mantissa digits : List Char} {places : Nat}
    (form : Mantissa mantissa digits places) : ∀ char ∈ mantissa, char = '.' ∨ char ∈ digits := by
  intro char member
  cases form with
  | whole => exact .inr member
  | pointed whole fraction =>
      rcases List.mem_append.mp member with front | back
      · exact .inr (List.mem_append_left _ front)
      · rcases List.mem_cons.mp back with point | behind
        · exact .inl point
        · exact .inr (List.mem_append_right _ behind)

def marksPower (char : Char) : Bool :=
  char == 'e' || char == 'E'

theorem Mantissa.unmarked {mantissa digits : List Char} {places : Nat}
    (form : Mantissa mantissa digits places) (spells : Digits 10 digits) :
    ∀ char ∈ mantissa, marksPower char = false := by
  intro char member
  rcases form.chars char member with rfl | digit
  · rfl
  · rw [marksPower, spells.free (by decide) char digit, spells.free (by decide) char digit]
    rfl

theorem Digits.unsigned {radix : Nat} {chars : List Char} (spells : Digits radix chars)
    (noMinus : isDigit radix '-' = false) (noPlus : isDigit radix '+' = false) :
    ∀ char ∈ chars.head?, char ≠ '-' ∧ char ≠ '+' := by
  intro char head
  have member := List.mem_of_mem_head? head
  exact ⟨ne_of_beq_false (spells.free noMinus char member),
    ne_of_beq_false (spells.free noPlus char member)⟩

/-- An exponent is read where a signed 64-bit word holds it. -/
theorem exponent?_of_signed {text digits : List Char} {negative : Bool}
    (signed : Signed text negative digits) (spells : Digits 10 digits) :
    exponent? text
      = if fitsWord (applySign negative (spelled 10 digits)) then
          some (applySign negative (spelled 10 digits))
        else none := by
  rw [exponent?, signed.splitSign (spells.unsigned (by decide) (by decide)),
    natural?_eq_some_iff.mpr ⟨spells, rfl⟩]

theorem exponent?_spelled {text : List Char} {exponent : Int} (read : exponent? text = some exponent) :
    ∃ negative digits, Signed text negative digits ∧ Digits 10 digits := by
  rw [exponent?] at read
  split at read
  · rename_i magnitude natural
    exact ⟨_, _, splitSign_signed text, (natural?_eq_some_iff.mp natural).1⟩
  · cases read

theorem Mantissa.cut {mantissa digits : List Char} {places : Nat}
    (form : Mantissa mantissa digits places) (spells : Digits 10 digits) :
    (Number.cut (· == '.') mantissa).1 ++ (Number.cut (· == '.') mantissa).2.getD [] = digits
      ∧ ((Number.cut (· == '.') mantissa).2.getD []).length = places := by
  have pointless : ∀ char ∈ digits, (char == '.') = false := spells.free (by decide)
  cases form with
  | whole =>
      rw [cut_absent pointless]
      exact ⟨List.append_nil _, rfl⟩
  | pointed whole fraction =>
      rw [cut_append (fun char member => pointless char (List.mem_append_left _ member)) rfl]
      exact ⟨rfl, rfl⟩

/-- How a decimal body is answered: its exponent has to fit into a word, and then the point must not
move too far. -/
theorem decimal_of_form (literal : List Char) {mantissa digits suffix : List Char}
    {places : Nat} {exponent : Int} (form : Mantissa mantissa digits places)
    (spells : Digits 10 digits) (power : Power suffix exponent) :
    decimal literal (mantissa ++ suffix)
      = if fitsWord exponent then
          if (exponent - places).natAbs ≤ maxExponent then
            .ok (scaled (spelled 10 digits) (exponent - places))
          else .error (.exponentTooBig (String.ofList literal))
        else .error (.malformed (String.ofList literal)) := by
  have same : (fun char : Char => char == 'e' || char == 'E') = marksPower := rfl
  have unmarked := form.unmarked spells
  obtain ⟨found, behind⟩ := form.cut spells
  have natural : natural? 10 digits = some (spelled 10 digits) :=
    natural?_eq_some_iff.mpr ⟨spells, rfl⟩
  simp only [decimal, same]
  cases power with
  | absent =>
      have zero : fitsWord 0 = true := rfl
      simp only [List.append_nil, cut_absent unmarked, found, behind, natural, Option.map_none, zero,
        if_true, Int.zero_sub, Int.natAbs_neg, Int.natAbs_natCast]
  | @marked mark marks text powers sign signed spelling =>
      have stops : marksPower mark = true := by
        rcases marks with rfl | rfl <;> rfl
      simp only [cut_append unmarked stops, found, behind, natural, Option.map_some,
        exponent?_of_signed signed spelling]
      cases fitsWord (applySign sign (spelled 10 powers)) <;> rfl

/-- A decimal body that is read has digits with a point, and an exponent. -/
theorem decimal_form {literal body : List Char} {terms : Nat × Nat}
    (read : decimal literal body = .ok terms) :
    ∃ mantissa digits suffix places exponent, body = mantissa ++ suffix
      ∧ Mantissa mantissa digits places ∧ Digits 10 digits ∧ Power suffix exponent := by
  have same : (fun char : Char => char == 'e' || char == 'E') = marksPower := rfl
  simp only [decimal, same] at read
  cases natural : natural? 10 ((cut (· == '.') (cut marksPower body).1).1
      ++ (cut (· == '.') (cut marksPower body).1).2.getD []) with
  | none =>
      rw [natural] at read
      cases read
  | some value =>
      obtain ⟨spells, -⟩ := natural?_eq_some_iff.mp natural
      have form : Mantissa (cut marksPower body).1
          ((cut (· == '.') (cut marksPower body).1).1
            ++ (cut (· == '.') (cut marksPower body).1).2.getD [])
          ((cut (· == '.') (cut marksPower body).1).2.getD []).length := by
        generalize (cut marksPower body).1 = mantissa
        rcases cut_cases (· == '.') mantissa with absent | ⟨whole, mark, fraction, rfl, point, found⟩
        · rw [absent, Option.getD_none, List.append_nil]
          exact .whole mantissa
        · rw [found, eq_of_beq point]
          exact .pointed whole fraction
      rcases cut_cases marksPower body with absent | ⟨mantissa, mark, text, rfl, marks, found⟩
      · rw [absent] at form spells
        exact ⟨body, _, [], _, _, (List.append_nil body).symm, form, spells, .absent⟩
      · rw [found] at form spells natural
        simp only [found, natural, Option.map_some] at read
        cases power : exponent? text with
        | none =>
            rw [power] at read
            cases read
        | some exponent =>
            obtain ⟨sign, powers, signed, spelling⟩ := exponent?_spelled power
            rw [marksPower, Bool.or_eq_true, beq_iff_eq, beq_iff_eq] at marks
            exact ⟨mantissa, _, mark :: text, _, _, rfl, form, spells, .marked marks signed spelling⟩

/-- A decimal body is read as nothing but the fraction that it denotes. -/
theorem decimal_value {literal mantissa digits suffix : List Char} {places : Nat} {exponent : Int}
    {terms : Nat × Nat} (form : Mantissa mantissa digits places)
    (spells : Digits 10 digits) (power : Power suffix exponent)
    (read : decimal literal (mantissa ++ suffix) = .ok terms) :
    terms = scaled (spelled 10 digits) (exponent - places) := by
  rw [decimal_of_form literal form spells power] at read
  split at read
  · split at read
    · cases read
      rfl
    · cases read
  · cases read

theorem decimal_denotes {literal body : List Char} {terms : Nat × Nat}
    (read : decimal literal body = .ok terms) : Magnitude body terms.1 terms.2 := by
  obtain ⟨mantissa, digits, suffix, places, exponent, rfl, form, spells, power⟩ := decimal_form read
  rw [decimal_value form spells power read, scaled_eq]
  exact .decimal form spells power

end Decimals

section Parsing

theorem Magnitude.denominator_ne_zero {body : List Char} {numerator denominator : Nat}
    (magnitude : Magnitude body numerator denominator) : (denominator : Int) ≠ 0 := by
  cases magnitude with
  | announced => decide
  | decimal => exact Int.natCast_ne_zero.mpr (Nat.pos_iff_ne_zero.mp (Nat.pow_pos (by decide)))

theorem Mantissa.ne_nil {mantissa digits : List Char} {places : Nat}
    (form : Mantissa mantissa digits places) (spells : Digits 10 digits) : mantissa ≠ [] := by
  cases form with
  | whole => exact spells.1
  | pointed => exact List.append_ne_nil_of_right_ne_nil _ (List.cons_ne_nil _ _)

theorem Magnitude.unsigned {body : List Char} {numerator denominator : Nat}
    (magnitude : Magnitude body numerator denominator) :
    ∀ char ∈ body.head?, char ≠ '-' ∧ char ≠ '+' := by
  cases magnitude with
  | announced =>
      rintro char ⟨⟩
      exact ⟨by decide, by decide⟩
  | @decimal mantissa digits suffix _ _ form spells power =>
      intro char head
      have member : char ∈ mantissa := by
        cases mantissa with
        | nil => exact absurd rfl (form.ne_nil spells)
        | cons first rest =>
            cases head
            exact List.mem_cons_self
      rcases form.chars char member with rfl | digit
      · exact ⟨by decide, by decide⟩
      · exact ⟨ne_of_beq_false (spells.free (by decide) char digit),
          ne_of_beq_false (spells.free (by decide) char digit)⟩

theorem announces_eq_some {mark : Char} {radix : Nat} (marks : announces mark = some radix) :
    (mark = 'x' ∨ mark = 'X') ∧ radix = 16 ∨ (mark = 'b' ∨ mark = 'B') ∧ radix = 2 := by
  unfold announces at marks
  split at marks
  · cases marks
    exact .inl ⟨‹_›, rfl⟩
  · split at marks
    · cases marks
      exact .inr ⟨‹_›, rfl⟩
    · cases marks

/-- Behind a zero, a decimal body has no letter that announces a radix. -/
theorem Mantissa.unannounced {mantissa digits suffix rest : List Char} {places : Nat} {exponent : Int}
    {mark : Char} (form : Mantissa mantissa digits places) (spells : Digits 10 digits)
    (power : Power suffix exponent) (same : mantissa ++ suffix = '0' :: mark :: rest) :
    announces mark = none := by
  have known : mark = 'e' ∨ mark = 'E' ∨ mark = '.' ∨ mark ∈ digits := by
    cases mantissa with
    | nil => exact absurd rfl (form.ne_nil spells)
    | cons first tail =>
        cases tail with
        | nil =>
            cases power with
            | absent => cases same
            | marked marks =>
                cases same
                exact marks.elim .inl (.inr ∘ .inl)
        | cons second others =>
            cases same
            exact .inr (.inr (form.chars mark (List.mem_cons_of_mem _ List.mem_cons_self)))
  rcases known with rfl | rfl | rfl | digit
  · rfl
  · rfl
  · rfl
  · have apart {letter : Char} (no : isDigit 10 letter = false) : mark ≠ letter :=
      ne_of_beq_false (spells.free no mark digit)
    rw [announces, if_neg (not_or.mpr ⟨apart rfl, apart rfl⟩),
      if_neg (not_or.mpr ⟨apart rfl, apart rfl⟩)]

section Simple

variable {literal body : List Char} {negative : Bool} {number : Number} {terms : Nat × Nat}

theorem unsignedTerms_announced (literal : List Char) {mark : Char} {radix : Nat}
    (digits : List Char) (marks : announces mark = some radix) :
    unsignedTerms literal ('0' :: mark :: digits) = match natural? radix digits with
      | some magnitude => .ok (magnitude, 1)
      | none => .error (.malformed (String.ofList literal)) := by
  rcases announces_eq_some marks with ⟨rfl | rfl, rfl⟩ | ⟨rfl | rfl, rfl⟩ <;> rfl

theorem unsignedTerms_unannounced (literal : List Char)
    (unannounced : ∀ mark rest, body = '0' :: mark :: rest → announces mark = none) :
    unsignedTerms literal body = decimal literal body := by
  have other {mark : Char} {radix : Nat} {rest : List Char} (same : body = '0' :: mark :: rest) :
      announces mark ≠ some radix := by
    rw [unannounced mark rest same]
    exact nofun
  unfold unsignedTerms
  dsimp only
  split
  · exact absurd rfl (other rfl)
  · exact absurd rfl (other rfl)
  · exact absurd rfl (other rfl)
  · exact absurd rfl (other rfl)
  · rfl

theorem unsignedTerms_denotes (read : unsignedTerms literal body = .ok terms) :
    Magnitude body terms.1 terms.2 := by
  by_cases unannounced : ∀ mark rest, body = '0' :: mark :: rest → announces mark = none
  · rw [unsignedTerms_unannounced literal unannounced] at read
    exact decimal_denotes read
  · push Not at unannounced
    obtain ⟨mark, digits, rfl, announced⟩ := unannounced
    obtain ⟨radix, marks⟩ := Option.ne_none_iff_exists'.mp announced
    rw [unsignedTerms_announced literal digits marks] at read
    split at read
    · rename_i natural
      obtain ⟨spells, rfl⟩ := natural?_eq_some_iff.mp natural
      cases read
      exact .announced marks spells
    · cases read

theorem Magnitude.read {numerator denominator : Nat} (magnitude : Magnitude body numerator denominator)
    (read : unsignedTerms literal body = .ok terms) : terms = (numerator, denominator) := by
  cases magnitude with
  | announced marks spells =>
      rw [unsignedTerms_announced literal _ marks, natural?_eq_some_iff.mpr ⟨spells, rfl⟩] at read
      cases read
      rfl
  | decimal form spells power =>
      rw [unsignedTerms_unannounced literal fun _ _ => form.unannounced spells power] at read
      rw [← scaled_eq]
      exact decimal_value form spells power read

/-- A literal without a quotient is read as the fraction of its terms. -/
theorem parseSimple_eq (signed : Signed (Text.trim literal) negative body)
    (unsigned : ∀ char ∈ body.head?, char ≠ '-' ∧ char ≠ '+') :
    parseSimple literal
      = match unsignedTerms literal body with
        | .ok terms => ofFraction (applySign negative terms.1) terms.2
        | .error reason => .error reason := by
  rw [parseSimple, signed.splitSign unsigned]
  dsimp only
  cases unsignedTerms literal body <;> rfl

theorem parseSimple_denotes (read : parseSimple literal = .ok number) :
    ∃ negative body numerator denominator, Signed (Text.trim literal) negative body
      ∧ Magnitude body numerator denominator := by
  have signed := splitSign_signed (Text.trim literal)
  rw [parseSimple] at read
  cases split : splitSign (Text.trim literal) with
  | mk negative body =>
      rw [split] at signed read
      cases terms : unsignedTerms literal body with
      | error reason =>
          simp only [terms] at read
          cases read
      | ok pair => exact ⟨negative, body, _, _, signed, unsignedTerms_denotes terms⟩

theorem parseSimple_value {numerator denominator : Nat}
    (signed : Signed (Text.trim literal) negative body)
    (magnitude : Magnitude body numerator denominator) (read : parseSimple literal = .ok number) :
    number = ofRat (Rat.divInt (applySign negative numerator) denominator) := by
  rw [parseSimple_eq signed magnitude.unsigned] at read
  cases terms : unsignedTerms literal body with
  | error reason =>
      rw [terms] at read
      cases read
  | ok pair =>
      rw [terms, magnitude.read terms] at read
      dsimp only at read
      rw [ofFraction_eq magnitude.denominator_ne_zero] at read
      cases read
      rfl

end Simple

theorem ofRat_den_ne_zero (value : ℚ) : (ofRat value).den ≠ 0 :=
  Int.ne_of_gt (ofRat_canonical value).positive

/-- The terms of a rational are to those of a fraction of its value as these are to each other. -/
theorem cross_mul {p q : Int} (proper : q ≠ 0) :
    (ofRat (Rat.divInt p q)).num * q = p * (ofRat (Rat.divInt p q)).den :=
  (Rat.divInt_eq_divInt_iff (ofRat_den_ne_zero _) proper).mp (Rat.num_divInt_den _)

theorem quotient_ofRat (dividend divisor : ℚ) :
    (ofRat dividend).quotient (ofRat divisor)
      = if divisor = 0 then .error .divisionByZero else .ok (ofRat (dividend / divisor)) := by
  have zero : (dividend.den : Int) * divisor.num = 0 ↔ divisor = 0 := by
    rw [Int.mul_eq_zero, Rat.num_eq_zero]
    exact or_iff_right (Int.natCast_ne_zero.mpr dividend.den_nz)
  have terms : (ofRat dividend).quotient (ofRat divisor)
      = ofFraction (dividend.num * divisor.den) (dividend.den * divisor.num) := rfl
  rw [terms]
  split
  · rename_i none
    rw [ofFraction, if_pos (zero.mpr none)]
  · rename_i some
    rw [ofFraction_eq (mt zero.mp some), Rat.div_def']

theorem quotient_divInt {p q r s : Int} (proper : q ≠ 0) (also : s ≠ 0) {number : Number}
    (divided : quotient (ofRat (Rat.divInt p q)) (ofRat (Rat.divInt r s)) = .ok number) :
    q * r ≠ 0 ∧ number = ofRat (Rat.divInt (p * s) (q * r)) := by
  rw [quotient_ofRat] at divided
  split at divided
  · cases divided
  · rename_i nonzero
    cases divided
    rw [Rat.divInt_eq_zero also] at nonzero
    exact ⟨Int.mul_ne_zero proper nonzero, by rw [Rat.divInt_div_divInt]⟩

theorem mem_of_mem_trim {chars : List Char} {char : Char} (member : char ∈ Text.trim chars) :
    char ∈ chars := by
  rw [Text.trim, List.mem_reverse] at member
  have inner := (List.dropWhile_sublist _).subset member
  exact (List.dropWhile_sublist _).subset (List.mem_reverse.mp inner)

theorem parseChars_undivided {literal : List Char} (undivided : '/' ∉ Text.trim literal) :
    parseChars literal = parseSimple literal := by
  have none : (Text.trim literal).dropWhile (· != '/') = [] := by
    rw [List.dropWhile_eq_nil_iff]
    intro char member
    rw [bne_iff_ne]
    rintro rfl
    exact undivided member
  rw [parseChars]
  split
  · rfl
  · rename_i found
    rw [none] at found
    cases found

/-- What stands before the first stroke is divided by what stands behind it. -/
theorem parseChars_divided_iff {literal left right : List Char}
    (divided : Text.trim literal = left ++ '/' :: right) (first : '/' ∉ left) {number : Number} :
    parseChars literal = .ok number
      ↔ ∃ dividend divisor, parseChars left = .ok dividend ∧ parseChars right = .ok divisor
          ∧ dividend.quotient divisor = .ok number := by
  have passes : ∀ char ∈ left, (char != '/') = true := by
    intro char member
    rw [bne_iff_ne]
    rintro rfl
    exact first member
  have after : (Text.trim literal).dropWhile (· != '/') = '/' :: right := by
    rw [divided, List.dropWhile_append_of_pos passes]
    rfl
  have before : (Text.trim literal).takeWhile (· != '/') = left := by
    rw [divided, List.takeWhile_append_of_pos passes, List.takeWhile_cons_of_neg (by decide),
      List.append_nil]
  rw [parseChars_undivided fun stroke => first (mem_of_mem_trim stroke), parseChars]
  split
  · rename_i found
    rw [after] at found
    cases found
  · rename_i found
    rw [after] at found
    cases found
    rw [before]
    constructor
    · intro read
      cases one : parseSimple left with
      | error _ =>
          rw [one] at read
          cases read
      | ok dividend =>
          cases two : parseChars right with
          | error _ =>
              rw [one, two] at read
              cases read
          | ok divisor =>
              rw [one, two] at read
              exact ⟨dividend, divisor, rfl, rfl, read⟩
    · rintro ⟨dividend, divisor, one, two, read⟩
      rw [one, two]
      exact read

theorem parseChars_denotes (literal : List Char) {number : Number}
    (read : parseChars literal = .ok number) : ∃ p q, Denotes literal p q := by
  by_cases stroke : '/' ∈ Text.trim literal
  · obtain ⟨left, right, divided, first⟩ := List.eq_append_cons_of_mem stroke
    obtain ⟨_, _, one, two, _⟩ := (parseChars_divided_iff divided first).mp read
    have shorter : left.length < literal.length ∧ right.length < literal.length := by
      have trimmed := Text.trim_length_le literal
      rw [divided, List.length_append, List.length_cons] at trimmed
      omega
    obtain ⟨p, q, dividend⟩ := parseChars_denotes left one
    obtain ⟨r, s, divisor⟩ := parseChars_denotes right two
    exact ⟨_, _, .quotient divided first dividend divisor⟩
  · rw [parseChars_undivided stroke] at read
    obtain ⟨negative, body, _, _, signed, magnitude⟩ := parseSimple_denotes read
    exact ⟨_, _, .simple stroke signed magnitude⟩
termination_by literal.length

theorem Denotes.value {literal : List Char} {p q : Int} (denotes : Denotes literal p q)
    {number : Number} (read : parseChars literal = .ok number) :
    q ≠ 0 ∧ number = ofRat (Rat.divInt p q) := by
  induction denotes generalizing number with
  | simple undivided signed magnitude =>
      rw [parseChars_undivided undivided] at read
      exact ⟨magnitude.denominator_ne_zero, parseSimple_value signed magnitude read⟩
  | quotient divided first dividend divisor above below =>
      obtain ⟨_, _, one, two, read⟩ := (parseChars_divided_iff divided first).mp read
      obtain ⟨proper, rfl⟩ := above one
      obtain ⟨also, rfl⟩ := below two
      exact quotient_divInt proper also read

end Parsing

end Calculator.Number
