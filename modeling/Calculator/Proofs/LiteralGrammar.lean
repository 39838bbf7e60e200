import Calculator.Proofs.LiteralMeaning
import Mathlib.Algebra.Order.Ring.Rat
import Mathlib.Data.List.DropRight
import Mathlib.Data.Rat.Cast.Defs
import Mathlib.Tactic.NormNum
import Mathlib.Tactic.SplitIfs

/-!
# Which literals are read

The literals are those of a grammar that knows the value of each: a sign, an announced or decimal
magnitude whose point does not move too far, blanks around each part, and quotients that group to the
right and divide by no zero. A text is read exactly when it is one of them, and as the number that it
denotes. A reader with exponents of one word reads the literals whose exponents fit into a word; a text
that fits into memory has no others.
-/

namespace Calculator

namespace Text

theorem trim_around {front back : List Char} (text : List Char)
    (before : ∀ char ∈ front, isBlank char = true) (behind : ∀ char ∈ back, isBlank char = true) :
    trim (front ++ text ++ back) = trim text := by
  have back_reversed : ∀ char ∈ back.reverse, isBlank char = true := by
    intro char member
    exact behind char (List.mem_reverse.mp member)
  rw [trim, trim, List.append_assoc, List.dropWhile_append_of_pos before, List.dropWhile_append]
  split
  · rename_i blank
    rw [List.dropWhile_eq_nil_iff.mpr behind, List.isEmpty_iff.mp blank]
  · rw [List.reverse_append, List.dropWhile_append_of_pos back_reversed]

theorem trim_parts (text : List Char) :
    ∃ front back, text = front ++ trim text ++ back ∧ (∀ char ∈ front, isBlank char = true)
      ∧ ∀ char ∈ back, isBlank char = true := by
  refine ⟨text.takeWhile isBlank, (text.dropWhile isBlank).rtakeWhile isBlank, ?_, ?_, ?_⟩
  · have right := List.rdropWhile_append_rtakeWhile (p := isBlank) (l := text.dropWhile isBlank)
    rw [List.append_assoc]
    exact ((congrArg _ right).trans List.takeWhile_append_dropWhile).symm
  · exact fun char member => List.mem_takeWhile_imp member
  · exact fun char member => List.mem_rtakeWhile_imp member

theorem trim_of_solid {text : List Char} (solid : ∀ char ∈ text, isBlank char = false) :
    trim text = text := by
  have left : text.dropWhile isBlank = text := by
    rw [List.dropWhile_eq_self_iff]
    intro inside
    simp [solid _ (List.getElem_mem inside)]
  have right : text.rdropWhile isBlank = text := by
    rw [List.rdropWhile_eq_self_iff]
    intro nonempty
    simp [solid _ (List.getLast_mem nonempty)]
  exact (congrArg (List.rdropWhile isBlank) left).trans right

/-- What stands on either side of a character that is no blank is trimmed on the outside only. -/
theorem trim_divided {mark : Char} (solid : isBlank mark = false) (left right : List Char) :
    trim (left ++ mark :: right) = left.dropWhile isBlank ++ mark :: right.rdropWhile isBlank := by
  have stops (front rest : List Char) :
      (front ++ mark :: rest).dropWhile isBlank = front.dropWhile isBlank ++ mark :: rest := by
    rw [List.dropWhile_append]
    split
    · rename_i blank
      rw [List.isEmpty_iff.mp blank, List.dropWhile_cons_of_neg (by simp [solid]), List.nil_append]
    · rfl
  rw [trim, stops, List.reverse_append, List.reverse_cons, List.append_assoc, List.singleton_append,
    stops, List.reverse_append, List.reverse_cons, List.reverse_reverse, List.append_assoc,
    List.singleton_append]
  rfl

theorem trim_dropWhile (text : List Char) : trim (text.dropWhile isBlank) = trim text := by
  rw [trim, List.dropWhile_idempotent, trim]

theorem trim_rdropWhile (text : List Char) : trim (text.rdropWhile isBlank) = trim text := by
  have parts := List.rdropWhile_append_rtakeWhile (p := isBlank) (l := text)
  have behind : ∀ char ∈ text.rtakeWhile isBlank, isBlank char = true :=
    fun char member => List.mem_rtakeWhile_imp member
  have around := trim_around (text.rdropWhile isBlank) (List.forall_mem_nil _) behind
  rw [List.nil_append, parts] at around
  exact around.symm

end Text

namespace Number

def withSign (negative : Bool) (value : ℚ) : ℚ :=
  if negative then -value else value

/-- A simple literal without sign and blanks, with its value. Its exponent is one that is admitted. -/
inductive Simple (admits : Int → Prop) : List Char → ℚ → Prop where
  | announced {mark : Char} {radix : Nat} (marks : announces mark = some radix)
      {digits : List Char} (spells : Digits radix digits) :
      Simple admits ('0' :: mark :: digits) (spelled radix digits)
  | decimal {mantissa digits suffix : List Char} {places : Nat} {exponent : Int}
      (form : Mantissa mantissa digits places) (spells : Digits 10 digits)
      (power : Power suffix exponent) (admitted : admits exponent)
      (near : |exponent - places| ≤ 1000000) :
      Simple admits (mantissa ++ suffix) (spelled 10 digits * 10 ^ (exponent - places))

/-- A literal with its value. It is split at its first stroke, and what stands behind that may be split
again; blanks around its parts are ignored. -/
inductive Literal (admits : Int → Prop) : List Char → ℚ → Prop where
  | simple {front text back body : List Char} {negative : Bool} {value : ℚ}
      (before : ∀ char ∈ front, Text.isBlank char = true)
      (behind : ∀ char ∈ back, Text.isBlank char = true) (signed : Signed text negative body)
      (simple : Simple admits body value) :
      Literal admits (front ++ text ++ back) (withSign negative value)
  | quotient {left right : List Char} {dividend divisor : ℚ} (first : '/' ∉ left)
      (above : Literal admits left dividend) (below : Literal admits right divisor)
      (proper : divisor ≠ 0) : Literal admits (left ++ '/' :: right) (dividend / divisor)

variable {admits : Int → Prop}

section Characters

theorem blankless : ∀ char ∈ ([] : List Char), Text.isBlank char = true :=
  List.forall_mem_nil _

def solid (char : Char) : Bool :=
  !Text.isBlank char && char != '/'

theorem solid_iff {char : Char} : solid char = true ↔ Text.isBlank char = false ∧ char ≠ '/' := by
  rw [solid, Bool.and_eq_true, Bool.not_eq_true', bne_iff_ne]

theorem solid_of_le {char : Char} (low : 48 ≤ char.toNat) (high : char.toNat ≤ 122) :
    solid char = true := by
  have stroke : char ≠ '/' := by
    rintro rfl
    exact absurd low (by decide)
  have blank : Text.isBlank char = false := by
    simp only [Text.isBlank, Text.blankRanges, List.any_cons, List.any_nil, Bool.or_eq_false_iff,
      Bool.and_eq_false_iff, decide_eq_false_iff_not, and_true]
    omega
  exact solid_iff.mpr ⟨blank, stroke⟩

theorem digit_solid {radix : Nat} {char : Char} (digit : isDigit radix char = true) :
    solid char = true := by
  have between {low high : Char} (within : ('0' ≤ low ∧ high ≤ 'z'))
      (inside : (low ≤ char && char ≤ high) = true) : solid char = true := by
    rw [Bool.and_eq_true, decide_eq_true_eq, decide_eq_true_eq] at inside
    exact solid_of_le (Nat.le_trans within.1 inside.1) (Nat.le_trans inside.2 within.2)
  unfold isDigit digitValue? at digit
  split_ifs at digit with decimal lower upper
  · exact between (by decide) decimal
  · exact between (by decide) lower
  · exact between (by decide) upper

theorem Digits.solid {radix : Nat} {digits : List Char} (spells : Digits radix digits) :
    ∀ char ∈ digits, Number.solid char = true :=
  fun char member => digit_solid (spells.2 char member)

theorem Signed.solid {text body : List Char} {negative : Bool} (signed : Signed text negative body)
    (inside : ∀ char ∈ body, Number.solid char = true) : ∀ char ∈ text, Number.solid char = true := by
  cases signed with
  | plain => exact inside
  | plus => exact List.forall_mem_cons.mpr ⟨by decide, inside⟩
  | minus => exact List.forall_mem_cons.mpr ⟨by decide, inside⟩

theorem Power.solid {suffix : List Char} {exponent : Int} (power : Power suffix exponent) :
    ∀ char ∈ suffix, Number.solid char = true := by
  cases power with
  | absent => exact List.forall_mem_nil _
  | marked marks signed spells =>
      refine List.forall_mem_cons.mpr ⟨?_, signed.solid spells.solid⟩
      rcases marks with rfl | rfl <;> decide

theorem Mantissa.solid {mantissa digits : List Char} {places : Nat}
    (form : Mantissa mantissa digits places) (spells : Digits 10 digits) :
    ∀ char ∈ mantissa, Number.solid char = true := by
  intro char member
  rcases form.chars char member with rfl | digit
  · decide
  · exact spells.solid char digit

theorem Simple.solid {body : List Char} {value : ℚ} (simple : Simple admits body value) :
    ∀ char ∈ body, Number.solid char = true := by
  cases simple with
  | announced marks spells =>
      refine List.forall_mem_cons.mpr ⟨by decide, List.forall_mem_cons.mpr ⟨?_, spells.solid⟩⟩
      rcases announces_eq_some marks with ⟨rfl | rfl, _⟩ | ⟨rfl | rfl, _⟩ <;> decide
  | decimal form spells power =>
      exact List.forall_mem_append.mpr ⟨form.solid spells, power.solid⟩

theorem trim_solid {front text back : List Char} (before : ∀ char ∈ front, Text.isBlank char = true)
    (behind : ∀ char ∈ back, Text.isBlank char = true)
    (inside : ∀ char ∈ text, Number.solid char = true) : Text.trim (front ++ text ++ back) = text := by
  rw [Text.trim_around text before behind]
  exact Text.trim_of_solid fun char member => (solid_iff.mp (inside char member)).1

theorem undivided_of_solid {text : List Char} (inside : ∀ char ∈ text, Number.solid char = true) :
    '/' ∉ text :=
  fun stroke => (solid_iff.mp (inside '/' stroke)).2 rfl

end Characters

section Values

theorem applySign_eq (negative : Bool) (magnitude : Nat) :
    ((applySign negative magnitude : Int) : ℚ) = withSign negative magnitude := by
  cases negative with
  | false => rfl
  | true => exact Rat.intCast_neg magnitude

theorem ofFraction_scaled (negative : Bool) (magnitude : Nat) (scale : Int) :
    ofFraction (applySign negative (scaled magnitude scale).1) (scaled magnitude scale).2
      = .ok (ofRat (withSign negative (magnitude * 10 ^ scale))) := by
  rw [scaled_eq, ofFraction_eq (Int.natCast_ne_zero.mpr (Nat.pow_pos (by decide)).ne'),
    Rat.divInt_eq_div, applySign_mul]
  congr 2
  have sign : withSign negative (magnitude * 10 ^ scale)
      = withSign negative magnitude * 10 ^ scale := by
    cases negative with
    | false => rfl
    | true => exact (neg_mul _ _).symm
  rw [sign, Int.cast_mul, applySign_eq, mul_div_assoc]
  congr 1
  rcases Int.eq_nat_or_neg scale with ⟨places, rfl | rfl⟩
  · simp
  · simp

theorem ofFraction_integer (negative : Bool) (magnitude : Nat) :
    ofFraction (applySign negative magnitude) (1 : Nat) = .ok (ofRat (withSign negative magnitude)) := by
  rw [Int.natCast_one, ofFraction_eq Int.one_ne_zero, Rat.divInt_one, applySign_eq]

end Values

section Reading

def WordSized (value : Int) : Prop :=
  -2 ^ 63 ≤ value ∧ value < 2 ^ 63

instance : DecidablePred WordSized :=
  fun value => inferInstanceAs (Decidable (-2 ^ 63 ≤ value ∧ value < 2 ^ 63))

theorem fitsWord_iff {value : Int} : fitsWord value = true ↔ WordSized value := by
  rw [fitsWord, Bool.and_eq_true, decide_eq_true_eq, decide_eq_true_eq]
  rfl

theorem near_iff {scale : Int} : scale.natAbs ≤ maxExponent ↔ |scale| ≤ 1000000 := by
  rw [maxExponent, Int.abs_eq_natAbs]
  omega

theorem Simple.unsigned {body : List Char} {value : ℚ} (simple : Simple admits body value) :
    ∀ char ∈ body.head?, char ≠ '-' ∧ char ≠ '+' := by
  cases simple with
  | announced marks spells => exact (Magnitude.announced marks spells).unsigned
  | decimal form spells power => exact (Magnitude.decimal form spells power).unsigned

/-- What is read without its sign is the fraction of a simple literal. -/
theorem simple_of_read {literal body : List Char} {terms : Nat × Nat}
    (read : unsignedTerms literal body = .ok terms) :
    ∃ value, Simple WordSized body value ∧ ∀ negative,
      ofFraction (applySign negative terms.1) terms.2 = .ok (ofRat (withSign negative value)) := by
  by_cases unannounced : ∀ mark rest, body = '0' :: mark :: rest → announces mark = none
  · rw [unsignedTerms_unannounced literal unannounced] at read
    obtain ⟨mantissa, digits, suffix, places, exponent, rfl, form, spells, power⟩ := decimal_form read
    rw [decimal_of_form literal form spells power] at read
    split at read
    · rename_i fits
      split at read
      · rename_i near
        cases read
        exact ⟨_, .decimal form spells power (fitsWord_iff.mp fits) (near_iff.mp near),
          fun negative => ofFraction_scaled negative _ _⟩
      · cases read
    · cases read
  · push Not at unannounced
    obtain ⟨mark, digits, rfl, announced⟩ := unannounced
    obtain ⟨radix, marks⟩ := Option.ne_none_iff_exists'.mp announced
    rw [unsignedTerms_announced literal digits marks] at read
    split at read
    · rename_i natural
      obtain ⟨spells, rfl⟩ := natural?_eq_some_iff.mp natural
      cases read
      exact ⟨_, .announced marks spells, fun negative => ofFraction_integer negative _⟩
    · cases read

theorem Simple.read {body : List Char} {value : ℚ} (simple : Simple WordSized body value)
    (literal : List Char) :
    ∃ terms, unsignedTerms literal body = .ok terms ∧ ∀ negative,
      ofFraction (applySign negative terms.1) terms.2 = .ok (ofRat (withSign negative value)) := by
  cases simple with
  | announced marks spells =>
      rw [unsignedTerms_announced literal _ marks, natural?_eq_some_iff.mpr ⟨spells, rfl⟩]
      exact ⟨_, rfl, fun negative => ofFraction_integer negative _⟩
  | decimal form spells power admitted near =>
      rw [unsignedTerms_unannounced literal fun _ _ => form.unannounced spells power,
        decimal_of_form literal form spells power, if_pos (fitsWord_iff.mpr admitted),
        if_pos (near_iff.mpr near)]
      exact ⟨_, rfl, fun negative => ofFraction_scaled negative _ _⟩

/-- Without a stroke, a text is read exactly when it is a simple literal. -/
theorem parseSimple_ok_iff {literal : List Char} {number : Number} :
    parseSimple literal = .ok number
      ↔ ∃ negative body value, Signed (Text.trim literal) negative body
          ∧ Simple WordSized body value ∧ number = ofRat (withSign negative value) := by
  constructor
  · intro read
    have signed := splitSign_signed (Text.trim literal)
    rw [parseSimple] at read
    cases split : splitSign (Text.trim literal) with
    | mk negative body =>
        rw [split] at signed read
        cases terms : unsignedTerms literal body with
        | error reason =>
            simp only [terms] at read
            cases read
        | ok pair =>
            obtain ⟨value, simple, made⟩ := simple_of_read terms
            simp only [terms] at read
            have same : number = ofRat (withSign negative value) :=
              Except.ok.inj (read.symm.trans (made negative))
            exact ⟨negative, body, value, signed, simple, same⟩
  · rintro ⟨negative, body, value, signed, simple, rfl⟩
    obtain ⟨terms, read, made⟩ := simple.read literal
    rw [parseSimple_eq signed simple.unsigned, read]
    exact made negative

theorem Literal.around {literal : List Char} {value : ℚ} (meaning : Literal admits literal value)
    {front back : List Char} (before : ∀ char ∈ front, Text.isBlank char = true)
    (behind : ∀ char ∈ back, Text.isBlank char = true) :
    Literal admits (front ++ literal ++ back) value := by
  induction meaning generalizing front back with
  | simple outside inside signed simple =>
      have joined := Literal.simple (List.forall_mem_append.mpr ⟨before, outside⟩)
        (List.forall_mem_append.mpr ⟨inside, behind⟩) signed simple
      simpa only [List.append_assoc] using joined
  | @quotient left right _ _ first _ _ proper left_around right_around =>
      have stroke : '/' ∉ front ++ left ++ [] := by
        rw [List.append_nil, List.mem_append, not_or]
        exact ⟨fun blank => absurd (before '/' blank) (by decide), first⟩
      have joined := Literal.quotient stroke (left_around before blankless)
        (right_around blankless behind) proper
      simpa only [List.append_assoc, List.nil_append, List.append_nil, List.cons_append] using joined

theorem literal_of_read (literal : List Char) {number : Number}
    (read : parseChars literal = .ok number) :
    ∃ value, Literal WordSized literal value ∧ number = ofRat value := by
  obtain ⟨front, back, parts, before, behind⟩ := Text.trim_parts literal
  by_cases stroke : '/' ∈ Text.trim literal
  · obtain ⟨left, right, divided, first⟩ := List.eq_append_cons_of_mem stroke
    obtain ⟨_, _, one, two, divides⟩ := (parseChars_divided_iff divided first).mp read
    -- Either side is shorter and a literal by itself; what was trimmed goes around both.
    have shorter : left.length < literal.length ∧ right.length < literal.length := by
      have trimmed := Text.trim_length_le literal
      rw [divided, List.length_append, List.length_cons] at trimmed
      omega
    obtain ⟨dividend, above, rfl⟩ := literal_of_read left one
    obtain ⟨divisor, below, rfl⟩ := literal_of_read right two
    rw [quotient_ofRat] at divides
    split at divides
    · cases divides
    · rename_i proper
      cases divides
      have around := (Literal.quotient first above below proper).around before behind
      rw [← divided, ← parts] at around
      exact ⟨_, around, rfl⟩
  · rw [parseChars_undivided stroke] at read
    obtain ⟨negative, body, value, signed, simple, rfl⟩ := parseSimple_ok_iff.mp read
    have whole := Literal.simple before behind signed simple
    rw [← parts] at whole
    exact ⟨_, whole, rfl⟩
termination_by literal.length

theorem Literal.read {literal : List Char} {value : ℚ}
    (meaning : Literal WordSized literal value) {text : List Char}
    (same : Text.trim text = Text.trim literal) : parseChars text = .ok (ofRat value) := by
  -- A part of a trimmed text has lost blanks that the part of the literal has, so any text that is
  -- trimmed to the same is considered.
  induction meaning generalizing text with
  | @simple _ _ _ body negative value before behind signed simple =>
      have inside := signed.solid simple.solid
      rw [trim_solid before behind inside] at same
      rw [parseChars_undivided (same ▸ undivided_of_solid inside)]
      exact parseSimple_ok_iff.mpr ⟨negative, body, value, same ▸ signed, simple, rfl⟩
  | @quotient left right dividend divisor first _ _ proper left_read right_read =>
      rw [Text.trim_divided (by decide)] at same
      have outside : '/' ∉ left.dropWhile Text.isBlank :=
        fun stroke => first ((List.dropWhile_sublist _).subset stroke)
      refine (parseChars_divided_iff same outside).mpr ⟨ofRat dividend, ofRat divisor,
        left_read (Text.trim_dropWhile left), right_read (Text.trim_rdropWhile right), ?_⟩
      rw [quotient_ofRat, if_neg proper]

theorem parseChars_ok_iff {literal : List Char} {number : Number} :
    parseChars literal = .ok number ↔ ∃ value, Literal WordSized literal value ∧ number = ofRat value :=
  ⟨literal_of_read literal, fun ⟨_, meaning, same⟩ => same ▸ meaning.read rfl⟩

end Reading

section Memory

theorem Mantissa.places_le {mantissa digits : List Char} {places : Nat}
    (form : Mantissa mantissa digits places) : places ≤ mantissa.length := by
  cases form with
  | whole => exact Nat.zero_le _
  | pointed whole fraction =>
      rw [List.length_append, List.length_cons]
      omega

theorem Signed.length_le {text body : List Char} {negative : Bool}
    (signed : Signed text negative body) : body.length ≤ text.length := by
  cases signed with
  | plain => exact Nat.le_refl _
  | plus => exact Nat.le_succ _
  | minus => exact Nat.le_succ _

theorem Simple.wordSized {body : List Char} {value : ℚ} (simple : Simple admits body value)
    (held : body.length + 1000000 < 2 ^ 63) : Simple WordSized body value := by
  cases simple with
  | announced marks spells => exact .announced marks spells
  | decimal form spells power _ near =>
      -- The point cannot bring an exponent near that is larger than a text is long.
      have places := form.places_le
      rw [List.length_append] at held
      refine .decimal form spells power ?_ near
      rw [abs_le] at near
      constructor <;> omega

theorem Literal.wordSized {literal : List Char} {value : ℚ}
    (meaning : Literal admits literal value) (held : literal.length + 1000000 < 2 ^ 63) :
    Literal WordSized literal value := by
  induction meaning with
  | simple before behind signed simple =>
      have shorter := signed.length_le
      rw [List.length_append, List.length_append] at held
      exact .simple before behind signed (simple.wordSized (by omega))
  | quotient first _ _ proper above below =>
      rw [List.length_append, List.length_cons] at held
      exact .quotient first (above (by omega)) (below (by omega)) proper

theorem Simple.any {body : List Char} {value : ℚ} (simple : Simple admits body value) :
    Simple (fun _ => True) body value := by
  cases simple with
  | announced marks spells => exact .announced marks spells
  | decimal form spells power _ near => exact .decimal form spells power trivial near

theorem Literal.any {literal : List Char} {value : ℚ} (meaning : Literal admits literal value) :
    Literal (fun _ => True) literal value := by
  induction meaning with
  | simple before behind signed simple => exact .simple before behind signed simple.any
  | quotient first _ _ proper above below => exact .quotient first above below proper

end Memory

end Number

open Number

/-- A text is read exactly when it is a literal whose exponents fit into a word, and then as the terms of
the rational that it denotes. A longer exponent moves no point near again unless as many digits stand behind the
point, so every text that a memory of words can hold is read exactly when it is a literal at all. -/
theorem literals_are_read (text : String) (number : Number) :
    (parse text = .ok number ↔ ∃ value, Literal WordSized text.toList value ∧ number = ofRat value)
      ∧ (text.length + 1000000 < 2 ^ 63 →
          (parse text = .ok number
            ↔ ∃ value, Literal (fun _ => True) text.toList value ∧ number = ofRat value)) := by
  refine ⟨parseChars_ok_iff, fun held => ?_⟩
  constructor
  · intro read
    obtain ⟨value, meaning, same⟩ := parseChars_ok_iff.mp read
    exact ⟨value, meaning.any, same⟩
  · rintro ⟨value, meaning, same⟩
    rw [← String.length_toList] at held
    exact parseChars_ok_iff.mpr ⟨value, meaning.wordSized held, same⟩

/-- Quotients group to the right, blanks stand around each part, and a point needs digits on one side
only. -/
theorem odd_literal_is_read :
    "-0x1f/ +2./.5e+3".length + 1000000 < 2 ^ 63
      ∧ Literal (fun _ => True) "-0x1f/ +2./.5e+3".toList (-7750)
      ∧ parse "-0x1f/ +2./.5e+3" = .ok ⟨-7750, 1⟩ := by
  have held : "-0x1f/ +2./.5e+3".length + 1000000 < 2 ^ 63 := by decide
  have blank : ∀ char ∈ [' '], Text.isBlank char = true := List.forall_mem_singleton.mpr rfl
  have thirtyOne : Digits 16 ['1', 'f'] := by decide
  have two : Digits 10 ['2'] := by decide
  have three : Digits 10 ['3'] := by decide
  have five : Digits 10 ['5'] := by decide
  have hexadecimal : Simple (fun _ => True) ['0', 'x', '1', 'f'] 31 := .announced rfl thirtyOne
  have whole : Simple (fun _ => True) (['2', '.'] ++ []) (2 * 10 ^ (0 - ((0 : Nat) : Int))) :=
    .decimal (.pointed ['2'] []) two .absent trivial (by decide)
  have fraction : Simple (fun _ => True) (['.', '5'] ++ ['e', '+', '3'])
      (5 * 10 ^ (3 - ((1 : Nat) : Int))) :=
    .decimal (.pointed [] ['5']) five (.marked (.inl rfl) (.plus _) three) trivial (by decide)
  have dividend := Literal.simple blankless blankless (.minus _) hexadecimal
  have middle := Literal.simple blank blankless (.plus _) whole
  have last := Literal.simple blankless blankless (.plain _) fraction
  have divisor := Literal.quotient (by decide) middle last (by norm_num [withSign])
  have quotient := Literal.quotient (by decide) dividend divisor (by norm_num [withSign])
  have value : withSign true 31
      / (withSign false (2 * 10 ^ (0 - ((0 : Nat) : Int)))
        / withSign false (5 * 10 ^ (3 - ((1 : Nat) : Int)))) = -7750 := by norm_num [withSign]
  rw [value] at quotient
  have literal : Literal (fun _ => True) "-0x1f/ +2./.5e+3".toList (-7750) := quotient
  exact ⟨held, literal, ((literals_are_read _ _).2 held).mpr ⟨_, literal, rfl⟩⟩

end Calculator
