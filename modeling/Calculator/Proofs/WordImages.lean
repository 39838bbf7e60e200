import Calculator.Proofs.NumeratorBits
import Calculator.Proofs.SeekTargets
import Mathlib.Order.Bounds.Basic

/-!
# Words and their images

Words are read back from their image as they were, and bytes are read back from their words with the
fewest zeros that fill the last word. The image of a numerator spells its magnitude without a high zero
word. A native offset goes through its two words unchanged, and is a position where a signed word holds
it.
-/

namespace Calculator

namespace Word

theorem ofBytes_toBytes (word : UInt32) :
    ofBytes word.toUInt8 (word >>> 8).toUInt8 (word >>> 16).toUInt8 (word >>> 24).toUInt8 = word := by
  have spelled := magnitude_toBytes word
  have none : Positional.sum 256 [] = 0 := rfl
  simp only [Bytes.magnitude, toBytes, List.map_cons, List.map_nil, Positional.sum_cons, none,
    Nat.mul_zero, Nat.add_zero] at spelled
  rw [← UInt32.toNat_inj, toNat_ofBytes, spelled]

theorem toBytes_ofBytes (a b c d : UInt8) : toBytes (ofBytes a b c d) = [a, b, c, d] := by
  have bounds := And.intro (And.intro a.toNat_lt b.toNat_lt) (And.intro c.toNat_lt d.toNat_lt)
  have eight : (8 : UInt32).toNat % 32 = 8 := rfl
  have sixteen : (16 : UInt32).toNat % 32 = 16 := rfl
  have twentyFour : (24 : UInt32).toNat % 32 = 24 := rfl
  simp only [toBytes, List.cons.injEq, and_true, ← UInt8.toNat_inj, UInt32.toNat_toUInt8,
    UInt32.toNat_shiftRight, Nat.shiftRight_eq_div_pow, eight, sixteen, twentyFour, toNat_ofBytes]
  omega

theorem image_cons (word : UInt32) (rest : List UInt32) :
    image (word :: rest) = toBytes word ++ image rest := rfl

theorem ofImage_image (words : List UInt32) : ofImage (image words) = words := by
  induction words with
  | nil => rfl
  | cons word rest ih =>
      rw [image_cons, toBytes, List.cons_append, List.cons_append, List.cons_append, List.cons_append,
        List.nil_append, ofImage, ih, ofBytes_toBytes]

def lack (length : Nat) : Nat :=
  (size - length % size) % size

theorem lack_isLeast (length : Nat) : IsLeast {count | size ∣ length + count} (lack length) := by
  constructor
  · show size ∣ length + lack length
    rw [lack, size]
    omega
  · intro count whole
    have divided : size ∣ length + count := whole
    rw [size] at divided
    rw [lack, size]
    omega

theorem lack_four (length : Nat) : lack (length + 4) = lack length := by
  rw [lack, lack, size, Nat.add_mod_right]

theorem image_ofImage (bytes : Bytes) :
    image (ofImage bytes) = bytes ++ Bytes.zeros (lack bytes.length) := by
  fun_induction ofImage bytes with
  | case1 => rfl
  | case2 a | case3 a b | case4 a b c =>
      rw [image_cons, toBytes_ofBytes]
      rfl
  | case5 a b c d rest ih =>
      have four : (a :: b :: c :: d :: rest).length = rest.length + 4 := rfl
      rw [image_cons, toBytes_ofBytes, ih, four, lack_four]
      rfl

theorem toNat_join (low high : UInt32) : (join low high).toNat = low.toNat + base * high.toNat := by
  have below := low.toNat_lt
  have above := high.toNat_lt
  have place : (32 : UInt64).toNat % 64 = 32 := rfl
  have room : high.toNat * 2 ^ 32 < 2 ^ 64 := by omega
  rw [join, UInt64.toNat_or, UInt64.toNat_shiftLeft, UInt32.toNat_toUInt64, UInt32.toNat_toUInt64,
    place, Nat.shiftLeft_eq, Nat.mod_eq_of_lt room, Nat.or_comm, ← Nat.shiftLeft_eq,
    ← Nat.shiftLeft_add_eq_or_of_lt below, Nat.shiftLeft_eq, base]
  omega

theorem toNat_split (offset : UInt64) :
    (split offset).1.toNat = offset.toNat % base ∧ (split offset).2.toNat = offset.toNat / base := by
  have bound := offset.toNat_lt
  have place : (32 : UInt64).toNat % 64 = 32 := rfl
  constructor
  · rw [split, UInt64.toNat_toUInt32, base]
  · rw [split, UInt64.toNat_toUInt32, UInt64.toNat_shiftRight, place, Nat.shiftRight_eq_div_pow, base]
    omega

theorem join_split (offset : UInt64) : join (split offset).1 (split offset).2 = offset := by
  rw [← UInt64.toNat_inj, toNat_join, (toNat_split offset).1, (toNat_split offset).2, Nat.mod_add_div]

end Word

namespace Number

theorem numeratorLength_eq (number : Number) :
    number.numeratorLength = magnitudeLength number.num.natAbs := by
  rw [numeratorLength, numeratorWords, magnitudeWords, magnitudeLength]
  split
  · rename_i zero
    rw [zero]
    rfl
  · rename_i nonzero
    have bits : Word.base = 2 ^ 32 := by decide
    rw [Word.ofNat, List.length_map, Positional.digits_eq (by decide),
      Nat.length_digits _ _ (by decide) nonzero, bits, Nat.log_pow_left, ← Nat.log2_eq_log_two]

theorem highWord_eq_zero_iff (number : Number) :
    ∃ word, number.numeratorWords.getLast? = some word ∧ (word = 0 ↔ number.num = 0) := by
  rw [numeratorWords, magnitudeWords]
  split
  · rename_i zero
    exact ⟨0, rfl, fun _ => Int.natAbs_eq_zero.mp zero, fun _ => rfl⟩
  · rename_i nonzero
    have digits : Nat.digits Word.base number.num.natAbs ≠ [] :=
      Nat.digits_ne_nil_iff_ne_zero.mpr nonzero
    have high := Nat.getLast_digit_ne_zero Word.base nonzero
    have narrow := Nat.digits_lt_base (by decide) (List.getLast_mem digits)
    refine ⟨_, by rw [Word.ofNat, Positional.digits_eq (by decide), List.getLast?_map,
      List.getLast?_eq_some_getLast digits, Option.map_some], ?_, ?_⟩
    · intro none
      rw [← UInt32.toNat_inj, Nat.toUInt32, UInt32.toNat_ofNat_of_lt' narrow] at none
      exact absurd none high
    · exact fun zero => absurd (Int.natAbs_eq_zero.mpr zero) nonzero

end Number

namespace Position

theorem ofNative_eq (offset : UInt64) : ofNative offset = offset.toNat := by
  have words : Word.toNat [(Word.split offset).1, (Word.split offset).2]
      = (Word.split offset).1.toNat + Word.base * (Word.split offset).2.toNat := by
    rw [Word.toNat, Positional.value_eq]
    rfl
  rw [ofNative, words, (Word.toNat_split offset).1, (Word.toNat_split offset).2, Nat.mod_add_div]

theorem toAbsolute_ofNative (offset : UInt64) :
    toAbsolute (ofNative offset)
      = if offset.toNat < 2 ^ 63 then .ok offset.toNat else .error .positionOutOfRange := by
  have counted := @toAbsolute_counted 0 (by omega) offset.toNat
  rw [Int.add_zero] at counted
  rw [ofNative_eq, counted]
  by_cases small : offset.toNat < 2 ^ 63
  · rw [if_neg (by omega), if_neg (by omega), if_pos small, Int.toNat_natCast]
  · rw [if_pos (by omega), if_neg small]

end Position

/-- Words and images give each other back, up to the zeros that fill the last word; the image of a
numerator spells its magnitude in as few words as there are; and a native offset is the position of its
two words, where a signed word holds it. -/
theorem word_images_are_exact :
    (∀ words, Word.ofImage (Word.image words) = words)
      ∧ (∀ bytes : Bytes, ∃ gap, IsLeast {count | 4 ∣ bytes.length + count} gap
          ∧ Word.image (Word.ofImage bytes) = bytes ++ Bytes.zeros gap)
      ∧ (∀ number : Number, number.numeratorBytes.magnitude = number.num.natAbs
          ∧ number.numeratorBytes.length = 4 * number.numeratorLength
          ∧ 4 ≤ number.numeratorBytes.length
          ∧ number.numeratorLength = Number.magnitudeLength number.num.natAbs
          ∧ ∃ word, number.numeratorWords.getLast? = some word ∧ (word = 0 ↔ number.num = 0))
      ∧ ∀ offset : UInt64, Word.join (Word.split offset).1 (Word.split offset).2 = offset
          ∧ Position.ofNative offset = offset.toNat
          ∧ Position.toAbsolute (Position.ofNative offset)
            = if offset.toNat < 2 ^ 63 then .ok offset.toNat else .error .positionOutOfRange := by
  refine ⟨Word.ofImage_image, ?_, ?_, ?_⟩
  · intro bytes
    exact ⟨Word.lack bytes.length, Word.lack_isLeast bytes.length, Word.image_ofImage bytes⟩
  · intro number
    have length := number.numeratorBytes_length
    have counted := number.numeratorLength_eq
    have positive : 0 < number.numeratorLength := by
      rw [counted, Number.magnitudeLength]
      exact Nat.succ_pos _
    exact ⟨number.numeratorBytes_magnitude, length, by omega, counted, number.highWord_eq_zero_iff⟩
  · intro offset
    exact ⟨Word.join_split offset, Position.ofNative_eq offset, Position.toAbsolute_ofNative offset⟩

end Calculator
