import Calculator.Proofs.CanonicalNumbers
import Calculator.Proofs.CopyOutcome
import Calculator.Proofs.Numerals

/-!
# Numerators as bit fields

Bytes that are written over a numerator replace the bits of its magnitude from a word on, and no others.
The image is resized so that the bytes lie inside, the sign stays unless nothing is left, and the
fraction is reduced again. Behind the top word the bytes are added above all digits.
-/

namespace Calculator

def replaceBits (magnitude start width field : Nat) : Nat :=
  magnitude % 2 ^ start + field * 2 ^ start + magnitude / 2 ^ (start + width) * 2 ^ (start + width)

/-- The field stands where it was put, and all other bits stay. -/
theorem testBit_replaceBits (magnitude start : Nat) {width field : Nat} (narrow : field < 2 ^ width)
    (bit : Nat) :
    (replaceBits magnitude start width field).testBit bit
      = if start ≤ bit ∧ bit < start + width then field.testBit (bit - start)
        else magnitude.testBit bit := by
  have nested : replaceBits magnitude start width field
      = 2 ^ start * (2 ^ width * (magnitude / 2 ^ (start + width)) + field)
        + magnitude % 2 ^ start := by
    rw [replaceBits, Nat.pow_add]
    ring
  have low : magnitude % 2 ^ start < 2 ^ start := Nat.mod_lt _ (Nat.two_pow_pos start)
  rw [nested, Nat.testBit_two_pow_mul_add _ low]
  by_cases before : bit < start
  · rw [if_pos before, if_neg (by omega), Nat.testBit_mod_two_pow, decide_eq_true before,
      Bool.true_and]
  · rw [if_neg before, Nat.testBit_two_pow_mul_add _ narrow, Nat.testBit_div_two_pow]
    by_cases inside : bit - start < width
    · rw [if_pos inside, if_pos (by omega)]
    · rw [if_neg inside, if_neg (by omega)]
      congr 1
      omega

theorem replaceBits_above {magnitude start : Nat} (short : magnitude < 2 ^ start) (width field : Nat) :
    replaceBits magnitude start width field = magnitude + field * 2 ^ start := by
  have shorter : magnitude < 2 ^ (start + width) :=
    Nat.lt_of_lt_of_le short (Nat.pow_le_pow_right (by decide) (Nat.le_add_right start width))
  rw [replaceBits, Nat.mod_eq_of_lt short, Nat.div_eq_of_lt shorter, Nat.zero_mul, Nat.add_zero]

namespace Bytes

theorem magnitude_eq (bytes : Bytes) :
    bytes.magnitude = Nat.ofDigits (2 ^ 8) (bytes.map UInt8.toNat) :=
  Positional.sum_eq_ofDigits 256 _

theorem values_lt (bytes : Bytes) : ∀ value ∈ bytes.map UInt8.toNat, value < 2 ^ 8 := by
  intro value member
  obtain ⟨byte, _, rfl⟩ := List.mem_map.mp member
  exact byte.toNat_lt

theorem magnitude_append (low high : Bytes) :
    magnitude (low ++ high) = low.magnitude + 2 ^ (8 * low.length) * high.magnitude := by
  rw [magnitude_eq, List.map_append, Nat.ofDigits_append, List.length_map, ← Nat.pow_mul,
    ← magnitude_eq, ← magnitude_eq]

theorem magnitude_lt (bytes : Bytes) : bytes.magnitude < 2 ^ (8 * bytes.length) := by
  have bound := Nat.ofDigits_lt_base_pow_length (b := 2 ^ 8) (by decide) bytes.values_lt
  rwa [List.length_map, ← Nat.pow_mul, ← magnitude_eq] at bound

theorem magnitude_take (bytes : Bytes) (count : Nat) :
    magnitude (bytes.take count) = bytes.magnitude % 2 ^ (8 * count) := by
  rw [magnitude_eq, magnitude_eq, List.map_take, Nat.pow_mul,
    Nat.ofDigits_mod_pow_eq_ofDigits_take count (by decide) _ bytes.values_lt]

theorem magnitude_drop (bytes : Bytes) (count : Nat) :
    magnitude (bytes.drop count) = bytes.magnitude / 2 ^ (8 * count) := by
  rw [magnitude_eq, magnitude_eq, List.map_drop, Nat.pow_mul,
    Nat.ofDigits_div_pow_eq_ofDigits_drop count (by decide) _ bytes.values_lt]

theorem magnitude_padTo (bytes : Bytes) (length : Nat) :
    (bytes.padTo length).magnitude = bytes.magnitude := by
  rw [padTo, zeros, magnitude_eq, List.map_append, List.map_replicate, magnitude_eq]
  exact Nat.ofDigits_append_replicate_zero _

/-- What is written inside a string of bytes replaces the bits at its place. -/
theorem magnitude_overwrite {bytes patch : Bytes} {start : Nat}
    (inside : start + patch.length ≤ bytes.length) :
    (bytes.overwrite start patch).magnitude
      = replaceBits bytes.magnitude (8 * start) (8 * patch.length) patch.magnitude := by
  have front : (bytes.take start).length = start := by
    rw [List.length_take]
    omega
  rw [overwrite, magnitude_append, magnitude_append, List.length_append, front, magnitude_take,
    magnitude_drop, replaceBits, Nat.mul_add]
  ring

end Bytes

namespace Word

theorem magnitude_toBytes (word : UInt32) : Bytes.magnitude (toBytes word) = word.toNat := by
  have bound := word.toNat_lt
  have eight : (8 : UInt32).toNat % 32 = 8 := rfl
  have sixteen : (16 : UInt32).toNat % 32 = 16 := rfl
  have twentyFour : (24 : UInt32).toNat % 32 = 24 := rfl
  have none : Positional.sum 256 [] = 0 := rfl
  simp only [Bytes.magnitude, toBytes, List.map_cons, List.map_nil, Positional.sum_cons,
    UInt32.toNat_toUInt8, UInt32.toNat_shiftRight, Nat.shiftRight_eq_div_pow, eight, sixteen,
    twentyFour]
  omega

theorem magnitude_image (words : List UInt32) : (image words).magnitude = toNat words := by
  rw [toNat, Positional.value_eq]
  induction words with
  | nil => rfl
  | cons word rest ih =>
      have first : image (word :: rest) = toBytes word ++ image rest := rfl
      have four : (toBytes word).length = 4 := rfl
      have bits : 2 ^ (8 * 4) = base := by decide
      rw [first, Bytes.magnitude_append, magnitude_toBytes, ih, List.map_cons, Positional.sum_cons,
        four, bits]

theorem toNat_ofNat (number : Nat) : toNat (ofNat number) = number := by
  have words : ((Nat.digits base number).map Nat.toUInt32).map UInt32.toNat
      = (Nat.digits base number).map id := by
    rw [List.map_map]
    apply List.map_congr_left
    intro word member
    exact UInt32.toNat_ofNat_of_lt (Nat.digits_lt_base (by decide) member)
  rw [toNat, ofNat, Positional.digits_eq (by decide), words, List.map_id, Positional.value_eq,
    Positional.sum_eq_ofDigits, Nat.ofDigits_digits]

end Word

namespace Number

theorem numeratorBytes_magnitude (number : Number) :
    number.numeratorBytes.magnitude = number.num.natAbs := by
  rw [numeratorBytes, Word.magnitude_image, numeratorWords, magnitudeWords]
  split
  · rename_i zero
    rw [zero]
    decide
  · exact Word.toNat_ofNat _

theorem numeratorBytes_length (number : Number) :
    number.numeratorBytes.length = 4 * number.numeratorLength :=
  Word.image_length _

theorem natAbs_lt (number : Number) : number.num.natAbs < 2 ^ (32 * number.numeratorLength) := by
  have bound := number.numeratorBytes.magnitude_lt
  rwa [numeratorBytes_magnitude, numeratorBytes_length, ← Nat.mul_assoc] at bound

def resizedImage (number : Number) (start count : Nat) : Bytes :=
  Word.image (number.numeratorWords
    ++ List.replicate (start + wordsFor count - number.numeratorLength) 0)

theorem resizedImage_holds (number : Number) (start count : Nat) :
    start * Word.size + count ≤ (number.resizedImage start count).length := by
  rw [resizedImage, Word.image_length, List.length_append, List.length_replicate, ← numeratorLength,
    wordsFor, Word.size]
  omega

def replacedNumerator (number : Number) (start : Nat) (bytes : Bytes) : Nat :=
  replaceBits number.num.natAbs (32 * start) (8 * bytes.length) bytes.magnitude

theorem patchedNumerator_eq (number : Number) (start : Nat) (bytes : Bytes) :
    number.patchedNumerator start bytes
      = applySign (decide (number.num < 0)) (number.replacedNumerator start bytes) := by
  have inside : Word.size * start + bytes.length
      ≤ (number.numeratorBytes.padTo (Word.size * (start + wordsFor bytes.length))).length := by
    rw [Bytes.padTo_length, wordsFor, Word.size]
    omega
  have words : 8 * (Word.size * start) = 32 * start := by
    rw [← Nat.mul_assoc]
    rfl
  rw [patchedNumerator, Bytes.magnitude_overwrite inside, Bytes.magnitude_padTo,
    numeratorBytes_magnitude, replacedNumerator, words]

/-- What is computed is the fraction of the resized image with the bytes put inside. -/
theorem Canonical.overwriteNumerator_resized {number : Number} (canonical : number.Canonical)
    (start : Nat) (bytes : Bytes) :
    ofFraction (applySign (decide (number.num < 0)) (Word.toNat (Word.ofImage
        ((number.resizedImage start bytes.length).overwrite (start * Word.size) bytes)))) number.den
      = .ok (number.overwriteNumerator start bytes) := by
  have image : number.resizedImage start bytes.length
      = number.numeratorBytes.padTo (Word.size * (start + wordsFor bytes.length)) := by
    rw [resizedImage, Word.image_append, Word.image_zeros, numeratorBytes, Bytes.padTo,
      Word.image_length, Nat.mul_sub, numeratorLength]
  rw [ofFraction_eq (Int.ne_of_gt canonical.positive), overwriteNumerator_eq canonical.positive, image,
    Word.toNat_ofImage, Nat.mul_comm start Word.size]
  rfl

theorem Reduces.negative_iff {p q : Int} {number : Number} (reduces : Reduces p q number)
    (positive : 0 < q) : number.num < 0 ↔ p < 0 := by
  have den := reduces.positive
  have equal := reduces.equal
  constructor
  · intro negative
    have product := Int.mul_neg_of_neg_of_pos negative positive
    rw [equal] at product
    exact Int.neg_of_mul_neg_left product den
  · intro negative
    have product := Int.mul_neg_of_neg_of_pos negative den
    rw [← equal] at product
    exact Int.neg_of_mul_neg_left product positive

theorem applySign_negative_iff (negative : Bool) (magnitude : Nat) :
    applySign negative magnitude < 0 ↔ negative = true ∧ magnitude ≠ 0 := by
  cases negative with
  | false => simp [applySign]
  | true => simp [applySign, Nat.pos_iff_ne_zero]

/-- The number that is left when bytes stand in the place of the bits of a numerator from a word on. -/
structure Overwritten (number : Number) (start : Nat) (bytes : Bytes) (result : Number) : Prop where
  reduces : Reduces (applySign (decide (number.num < 0)) (number.replacedNumerator start bytes))
    number.den result
  negative : result.num < 0 ↔ number.num < 0 ∧ number.replacedNumerator start bytes ≠ 0

theorem Canonical.overwritten {number : Number} (canonical : number.Canonical) (start : Nat)
    (bytes : Bytes) : Overwritten number start bytes (number.overwriteNumerator start bytes) := by
  have reduces := reduces_iff.mpr
    ⟨Int.ne_of_gt canonical.positive, overwriteNumerator_eq canonical.positive start bytes⟩
  rw [patchedNumerator_eq] at reduces
  refine ⟨reduces, ?_⟩
  rw [reduces.negative_iff canonical.positive, applySign_negative_iff, decide_eq_true_eq]

theorem replacedNumerator_nil (number : Number) (start : Nat) :
    number.replacedNumerator start [] = number.num.natAbs := by
  have nothing : Bytes.magnitude [] = 0 := rfl
  rw [replacedNumerator, replaceBits, nothing, List.length_nil, Nat.mul_zero, Nat.add_zero,
    Nat.zero_mul, Nat.add_zero, Nat.mod_add_div']

theorem Canonical.overwriteNumerator_nil {number : Number} (canonical : number.Canonical)
    (start : Nat) : number.overwriteNumerator start [] = number := by
  rw [overwriteNumerator_eq canonical.positive, patchedNumerator_eq, replacedNumerator_nil,
    applySign_natAbs]
  exact canonical.ofRat_toRat

theorem replacedNumerator_above (number : Number) (bytes : Bytes) :
    number.replacedNumerator number.numeratorLength bytes
      = number.num.natAbs + bytes.magnitude * 2 ^ (32 * number.numeratorLength) :=
  replaceBits_above number.natAbs_lt _ _

end Number

namespace Copy

variable {machine : Machine} {source destination : Value} {block : Block} {target : Payload Number}

/-- A block that may be copied is put into any number. -/
theorem copy_number_succeeds (held : destination.data = .number target)
    (stands : blockOf machine.blocks source = .ok block)
    (free : Unprotected machine.blocks source destination) {start : Int} (indexed : 0 ≤ start)
    (count position : Int) (exclusive : Bool) :
    Succeeds (copy source start count destination position exclusive machine) := by
  have kind : destination.kind = .number := by
    rw [Value.kind, held]
    rfl
  have routed : Routed source.kind destination.kind ∧ destination.kind ∈ reaches source.kind := by
    have direct := blockOf_isBlock stands
    rw [kind, Routed]
    revert direct
    cases source.kind <;> decide
  rw [copy_run, permit_ok_iff.mpr ⟨free, routed.1, indexed⟩]
  exact (route_plain_succeeds free routed.2 (.inl kind) 0).1

/-- What a block leaves of a number: the bytes that are selected stand in its numerator. -/
theorem copy_overwrites (held : destination.data = .number target)
    (canonical : target.content.Canonical) (stands : blockOf machine.blocks source = .ok block)
    (free : Unprotected machine.blocks source destination) {start : Int} (indexed : 0 ≤ start)
    (count position : Int) (exclusive : Bool) :
    ∃ after payload,
      (copy source start count destination position exclusive machine).1 = .ok after
        ∧ after.data = .number payload
        ∧ payload.content
          = intoNumber target.content (select block.data start.toNat count) position := by
  obtain ⟨after, answered⟩ := copy_number_succeeds held stands free indexed count position exclusive
  have stored := copy_into_number held stands answered
  refine ⟨after, _, answered, stored, ?_⟩
  split
  · rename_i nothing
    rw [nothing, intoNumber, canonical.overwriteNumerator_nil]
  · rfl

end Copy

open Number

/-- Bytes over the numerator of a canonical number, as all are that are made (`Produced.canonical`),
replace the bits of its magnitude from a word on, all inside the resized image; and a block goes into a
number so, behind its top word where no place is given. -/
theorem numerators_are_bit_fields :
    (∀ (number : Number) (start : Nat) (bytes : Bytes), number.Canonical →
        Overwritten number start bytes (number.overwriteNumerator start bytes)
          ∧ (∀ bit, (number.replacedNumerator start bytes).testBit bit
              = if 32 * start ≤ bit ∧ bit < 32 * start + 8 * bytes.length then
                  bytes.magnitude.testBit (bit - 32 * start)
                else number.num.natAbs.testBit bit)
          ∧ ofFraction (applySign (decide (number.num < 0)) (Word.toNat (Word.ofImage
                ((number.resizedImage start bytes.length).overwrite (start * Word.size) bytes))))
              number.den
            = .ok (number.overwriteNumerator start bytes)
          ∧ start * Word.size + bytes.length ≤ (number.resizedImage start bytes.length).length)
      ∧ ∀ (machine : Machine) (source destination : Value) (block : Block) (target : Payload Number)
          (start count position : Int) (exclusive : Bool), destination.data = .number target →
          target.content.Canonical → Copy.blockOf machine.blocks source = .ok block →
          Copy.Unprotected machine.blocks source destination → 0 ≤ start →
          let bytes : Bytes := Copy.select block.data start.toNat count
          let place := if position < 0 then target.content.numeratorLength else position.toNat
          ∃ after payload,
            (Copy.copy source start count destination position exclusive machine).1 = .ok after
              ∧ after.data = .number payload
              ∧ Overwritten target.content place bytes payload.content
              ∧ (position < 0 → target.content.replacedNumerator place bytes
                  = target.content.num.natAbs
                    + bytes.magnitude * 2 ^ (32 * target.content.numeratorLength)) := by
  constructor
  · intro number start bytes canonical
    exact ⟨canonical.overwritten start bytes, testBit_replaceBits _ _ bytes.magnitude_lt,
      canonical.overwriteNumerator_resized start bytes, resizedImage_holds number start bytes.length⟩
  · intro machine source destination block target start count position exclusive held canonical stands
      free indexed bytes place
    obtain ⟨after, payload, answered, stored, content⟩ :=
      Copy.copy_overwrites held canonical stands free indexed count position exclusive
    refine ⟨after, payload, answered, stored, ?_, ?_⟩
    · rw [content]
      exact canonical.overwritten _ _
    · intro negative
      have top : place = target.content.numeratorLength := if_pos negative
      rw [top]
      exact replacedNumerator_above _ _

/-- A byte that goes behind the digits of -3/2 is added above its one word. -/
theorem byte_is_added_above_digits :
    let source := Value.ofBlock (Block.ofBytes [5] 1)
    let destination := Value.ofNumber ⟨-3, 2⟩
    let machine := Machine.new {} (Host.initial none none)
    Copy.blockOf machine.blocks source = .ok (Block.ofBytes [5] 1)
      ∧ Copy.Unprotected machine.blocks source destination
      ∧ ∃ after payload,
        (Copy.copy source 0 (-1) destination (-1) false machine).1 = .ok after
          ∧ after.data = .number payload
          ∧ payload.content.num = -(3 + 5 * 2 ^ 32) ∧ payload.content.den = 2 := by
  intro source destination machine
  have stands : Copy.blockOf machine.blocks source = .ok (Block.ofBytes [5] 1) := rfl
  have free : Copy.Unprotected machine.blocks source destination :=
    ⟨by decide, by decide, nofun, nofun⟩
  have canonical : Canonical ⟨-3, 2⟩ := ⟨by decide, by decide⟩
  obtain ⟨after, payload, answered, stored, overwritten, added⟩ :=
    numerators_are_bit_fields.2 machine source destination _ ⟨⟨-3, 2⟩, none⟩ 0 (-1) (-1) false rfl
      canonical stands free (by decide)
  have byte : Copy.select (Block.ofBytes [5] 1).data (0 : Int).toNat (-1) = [5] := by decide
  have numerator := overwritten.reduces.numerator
  have denominator := overwritten.reduces.denominator
  rw [added (by decide), byte] at numerator denominator
  refine ⟨stands, free, after, payload, answered, stored, ?_, ?_⟩
  · rw [numerator]
    decide
  · rw [denominator]
    decide

end Calculator
