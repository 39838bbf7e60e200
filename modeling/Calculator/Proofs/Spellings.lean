import Calculator.Text.Decoding
import Mathlib.Data.List.Basic

/-!
# Spellings of characters

A text is well-formed when it is the UTF-8 of some characters. Such a text is read as these characters
and no others, so well-formed texts with different bytes are read differently. A text that is read
without U+FFFD is well-formed; what is malformed may be read as another text is.
-/

namespace Calculator

namespace Bytes

theorem toList_loop (bytes : ByteArray) (place : Nat) (read : List UInt8) :
    ByteArray.toList.loop bytes place read = read.reverse ++ bytes.data.toList.drop place := by
  fun_induction ByteArray.toList.loop bytes place read with
  | case1 place read inside ih =>
      have listed : place < bytes.data.toList.length := inside
      have next : bytes.get! place = bytes.data.toList[place] := getElem!_pos bytes.data place inside
      rw [ih, List.reverse_cons, List.append_assoc, List.drop_eq_getElem_cons listed, next]
      rfl
  | case2 place read outside =>
      rw [List.drop_eq_nil_of_le (Nat.le_of_not_lt outside), List.append_nil]

theorem ofString_eq (string : String) :
    ofString string = string.toList.flatMap String.utf8EncodeChar := by
  rw [ofString, String.toUTF8, ← String.utf8Encode_toList, List.utf8Encode, ByteArray.toList,
    toList_loop, List.data_toByteArray]
  rfl

end Bytes

namespace Text

def WellFormed (bytes : Bytes) : Prop :=
  ∃ string, Bytes.ofString string = bytes

/-- The bytes that spell one character. -/
inductive Spelling : Bytes → Char → Prop where
  | one {a : UInt8} (lead : a.toNat < 0x80) : Spelling [a] (Char.ofNat a.toNat)
  | two {a b : UInt8} (lead : 0xC2 ≤ a.toNat ∧ a.toNat ≤ 0xDF) (second : isContinuation b = true) :
      Spelling [a, b] (charOfTwo a b)
  | three {a b c : UInt8} (lead : 0xE0 ≤ a.toNat ∧ a.toNat ≤ 0xEF) (second : secondOfThree a b = true)
      (third : isContinuation c = true) : Spelling [a, b, c] (charOfThree a b c)
  | four {a b c d : UInt8} (lead : 0xF0 ≤ a.toNat ∧ a.toNat ≤ 0xF4) (second : secondOfFour a b = true)
      (third : isContinuation c = true) (fourth : isContinuation d = true) :
      Spelling [a, b, c, d] (charOfFour a b c d)

section Bounds

variable {a b : UInt8}

theorem within_iff {low high : UInt8} :
    (low ≤ a && a ≤ high) = true ↔ low.toNat ≤ a.toNat ∧ a.toNat ≤ high.toNat := by
  rw [Bool.and_eq_true, decide_eq_true_eq, decide_eq_true_eq, UInt8.le_iff_toNat_le,
    UInt8.le_iff_toNat_le]

theorem isContinuation_iff : isContinuation b = true ↔ 0x80 ≤ b.toNat ∧ b.toNat ≤ 0xBF :=
  within_iff

/-- The second byte is a continuation, and not below or above what two leads allow. -/
theorem second_iff {low high least most : UInt8} (apart : low.toNat ≠ high.toNat)
    (inside : 0x80 ≤ least.toNat ∧ most.toNat ≤ 0xBF) :
    (if a == low then least ≤ b && b ≤ 0xBF
        else if a == high then 0x80 ≤ b && b ≤ most else isContinuation b) = true
      ↔ (0x80 ≤ b.toNat ∧ b.toNat ≤ 0xBF) ∧ (a.toNat = low.toNat → least.toNat ≤ b.toNat)
        ∧ (a.toNat = high.toNat → b.toNat ≤ most.toNat) := by
  have first : a == low ↔ a.toNat = low.toNat := by rw [beq_iff_eq, ← UInt8.toNat_inj]
  have last : a == high ↔ a.toNat = high.toNat := by rw [beq_iff_eq, ← UInt8.toNat_inj]
  have least_tail : (0x80 : UInt8).toNat = 0x80 := rfl
  have most_tail : (0xBF : UInt8).toNat = 0xBF := rfl
  split
  · rename_i lead
    rw [first] at lead
    rw [within_iff, most_tail]
    omega
  · rename_i other
    rw [first] at other
    split
    · rename_i lead
      rw [last] at lead
      rw [within_iff, least_tail]
      omega
    · rename_i neither
      rw [last] at neither
      rw [isContinuation_iff]
      omega

theorem secondOfThree_iff : secondOfThree a b = true
    ↔ (0x80 ≤ b.toNat ∧ b.toNat ≤ 0xBF) ∧ (a.toNat = 0xE0 → 0xA0 ≤ b.toNat)
      ∧ (a.toNat = 0xED → b.toNat ≤ 0x9F) :=
  second_iff (by decide) (by decide)

theorem secondOfFour_iff : secondOfFour a b = true
    ↔ (0x80 ≤ b.toNat ∧ b.toNat ≤ 0xBF) ∧ (a.toNat = 0xF0 → 0x90 ≤ b.toNat)
      ∧ (a.toNat = 0xF4 → b.toNat ≤ 0x8F) :=
  second_iff (by decide) (by decide)

end Bounds

theorem val_ofNat {number : Nat} (valid : number.isValidChar) :
    (Char.ofNat number).val.toNat = number := by
  rw [Char.ofNat, dif_pos valid]
  rfl

theorem Spelling.encoded {bytes : Bytes} {char : Char} (spelling : Spelling bytes char) :
    String.utf8EncodeChar char = bytes := by
  cases spelling with
  | @one a lead =>
      rw [String.utf8EncodeChar, val_ofNat (.inl (by omega)), if_pos (by omega), UInt8.ofNat_toNat]
  | @two a b lead second =>
      rw [isContinuation_iff] at second
      rw [charOfTwo, String.utf8EncodeChar, val_ofNat (.inl (by omega)), if_neg (by omega),
        if_pos (by omega)]
      simp only [List.cons.injEq, and_true, ← UInt8.toNat_inj, UInt8.toNat_ofNat']
      omega
  | @three a b c lead second third =>
      rw [secondOfThree_iff] at second
      rw [isContinuation_iff] at third
      rw [charOfThree, String.utf8EncodeChar, val_ofNat (by rw [Nat.isValidChar]; omega),
        if_neg (by omega), if_neg (by omega), if_pos (by omega)]
      simp only [List.cons.injEq, and_true, ← UInt8.toNat_inj, UInt8.toNat_ofNat']
      omega
  | @four a b c d lead second third fourth =>
      rw [secondOfFour_iff] at second
      rw [isContinuation_iff] at third fourth
      rw [charOfFour, String.utf8EncodeChar, val_ofNat (by rw [Nat.isValidChar]; omega),
        if_neg (by omega), if_neg (by omega), if_neg (by omega)]
      simp only [List.cons.injEq, and_true, ← UInt8.toNat_inj, UInt8.toNat_ofNat']
      omega

section Encoding

variable {number : Nat}

theorem toNat_byte (small : number < 256) : (UInt8.ofNat number).toNat = number :=
  UInt8.toNat_ofNat_of_lt' small

theorem spelling_of_one (small : number < 0x80) :
    Spelling [UInt8.ofNat number] (Char.ofNat number) := by
  have first : (UInt8.ofNat number).toNat = number := toNat_byte (by omega)
  generalize UInt8.ofNat number = a at first
  rw [← first] at small ⊢
  exact .one small

theorem spelling_of_two (large : 0x80 ≤ number) (small : number < 0x800) :
    Spelling [UInt8.ofNat (number / 64 % 32 + 192), UInt8.ofNat (number % 64 + 128)]
      (Char.ofNat number) := by
  have first := @toNat_byte (number / 64 % 32 + 192) (by omega)
  have second := @toNat_byte (number % 64 + 128) (by omega)
  generalize UInt8.ofNat (number / 64 % 32 + 192) = a at first ⊢
  generalize UInt8.ofNat (number % 64 + 128) = b at second ⊢
  have spelled : charOfTwo a b = Char.ofNat number := by
    rw [charOfTwo, first, second]
    congr 1
    omega
  rw [← spelled]
  exact .two (by omega) (isContinuation_iff.mpr (by omega))

theorem spelling_of_three (large : 0x800 ≤ number) (small : number < 0x10000)
    (valid : number.isValidChar) :
    Spelling [UInt8.ofNat (number / 4096 % 16 + 224), UInt8.ofNat (number / 64 % 64 + 128),
      UInt8.ofNat (number % 64 + 128)] (Char.ofNat number) := by
  have first := @toNat_byte (number / 4096 % 16 + 224) (by omega)
  have second := @toNat_byte (number / 64 % 64 + 128) (by omega)
  have third := @toNat_byte (number % 64 + 128) (by omega)
  generalize UInt8.ofNat (number / 4096 % 16 + 224) = a at first ⊢
  generalize UInt8.ofNat (number / 64 % 64 + 128) = b at second ⊢
  generalize UInt8.ofNat (number % 64 + 128) = c at third ⊢
  have spelled : charOfThree a b c = Char.ofNat number := by
    rw [charOfThree, first, second, third]
    congr 1
    omega
  rw [Nat.isValidChar] at valid
  rw [← spelled]
  exact .three (by omega) (secondOfThree_iff.mpr (by omega)) (isContinuation_iff.mpr (by omega))

theorem spelling_of_four (large : 0x10000 ≤ number) (small : number < 0x110000) :
    Spelling [UInt8.ofNat (number / 262144 % 8 + 240), UInt8.ofNat (number / 4096 % 64 + 128),
      UInt8.ofNat (number / 64 % 64 + 128), UInt8.ofNat (number % 64 + 128)] (Char.ofNat number) := by
  have first := @toNat_byte (number / 262144 % 8 + 240) (by omega)
  have second := @toNat_byte (number / 4096 % 64 + 128) (by omega)
  have third := @toNat_byte (number / 64 % 64 + 128) (by omega)
  have fourth := @toNat_byte (number % 64 + 128) (by omega)
  generalize UInt8.ofNat (number / 262144 % 8 + 240) = a at first ⊢
  generalize UInt8.ofNat (number / 4096 % 64 + 128) = b at second ⊢
  generalize UInt8.ofNat (number / 64 % 64 + 128) = c at third ⊢
  generalize UInt8.ofNat (number % 64 + 128) = d at fourth ⊢
  have spelled : charOfFour a b c d = Char.ofNat number := by
    rw [charOfFour, first, second, third, fourth]
    congr 1
    omega
  rw [← spelled]
  exact .four (by omega) (secondOfFour_iff.mpr (by omega)) (isContinuation_iff.mpr (by omega))
    (isContinuation_iff.mpr (by omega))

theorem spelling_encodeChar (char : Char) : Spelling (String.utf8EncodeChar char) char := by
  have valid : char.val.toNat.isValidChar := char.valid
  have bound : char.val.toNat < 0x110000 := by
    rw [Nat.isValidChar] at valid
    omega
  have same : Char.ofNat char.val.toNat = char := Char.ofNat_toNat char
  rw [String.utf8EncodeChar]
  generalize char.val.toNat = number at valid bound same ⊢
  rw [← same]
  split
  · exact spelling_of_one (by omega)
  split
  · exact spelling_of_two (by omega) (by omega)
  split
  · exact spelling_of_three (by omega) (by omega) valid
  · exact spelling_of_four (by omega) bound

end Encoding

section FirstChar

variable {lead : UInt8} {rest : Bytes}

theorem Spelling.firstChar_eq {tail : Bytes} {char : Char} (spelling : Spelling (lead :: tail) char)
    (rest : Bytes) : firstChar lead (tail ++ rest) = (char, tail.length) := by
  -- The ranges of the leads lie apart, so each spelling meets its own branch.
  have short_iff : lead < 0x80 ↔ lead.toNat < 0x80 := UInt8.lt_iff_toNat_lt
  have two_iff : (0xC2 ≤ lead && lead ≤ 0xDF) = true ↔ 0xC2 ≤ lead.toNat ∧ lead.toNat ≤ 0xDF :=
    within_iff
  have three_iff : (0xE0 ≤ lead && lead ≤ 0xEF) = true ↔ 0xE0 ≤ lead.toNat ∧ lead.toNat ≤ 0xEF :=
    within_iff
  have four_iff : (0xF0 ≤ lead && lead ≤ 0xF4) = true ↔ 0xF0 ≤ lead.toNat ∧ lead.toNat ≤ 0xF4 :=
    within_iff
  simp only [firstChar.eq_def, short_iff, two_iff, three_iff, four_iff]
  cases spelling with
  | one short =>
      rw [if_pos short]
      rfl
  | two leads second =>
      rw [if_neg (by omega), if_pos leads]
      simp only [List.cons_append, second, if_true]
      rfl
  | three leads second third =>
      rw [if_neg (by omega), if_neg (by omega), if_pos leads]
      simp only [List.cons_append, second, third, if_true]
      rfl
  | four leads second third fourth =>
      rw [if_neg (by omega), if_neg (by omega), if_neg (by omega), if_pos leads]
      simp only [List.cons_append, second, third, fourth, if_true]
      rfl

theorem firstChar_spelled (known : (firstChar lead rest).1 ≠ replacement) :
    Spelling (lead :: rest.take (firstChar lead rest).2) (firstChar lead rest).1 := by
  -- What breaks off gives U+FFFD, which leaves the branches of whole characters.
  revert known
  rw [firstChar.eq_def]
  split
  case isTrue short => exact fun _ => .one (UInt8.lt_iff_toNat_lt.mp short)
  split
  case isTrue leads =>
    split
    · split
      case isTrue second => exact fun _ => .two (within_iff.mp leads) second
      case isFalse => exact absurd rfl
    · exact absurd rfl
  split
  case isTrue leads =>
    split
    · split
      case isTrue second =>
        split
        case isTrue third => exact fun _ => .three (within_iff.mp leads) second third
        case isFalse => exact absurd rfl
      case isFalse => exact absurd rfl
    · exact absurd rfl
    · exact absurd rfl
  split
  case isTrue leads =>
    split
    · split
      case isTrue second =>
        split
        case isTrue third =>
          split
          case isTrue fourth => exact fun _ => .four (within_iff.mp leads) second third fourth
          case isFalse => exact absurd rfl
        case isFalse => exact absurd rfl
      case isFalse => exact absurd rfl
    · exact absurd rfl
    · exact absurd rfl
    · exact absurd rfl
  case isFalse => exact absurd rfl

end FirstChar

section Texts

variable {bytes other : Bytes}

theorem decodeOnto_append (found : List Char) (bytes : Bytes) (before : List Char) :
    decodeOnto (found ++ before) bytes = before.reverse ++ decodeOnto found bytes := by
  induction found, bytes using decodeOnto.induct with
  | case1 found => rw [decodeOnto, decodeOnto, List.reverse_append]
  | case2 found lead rest ih =>
      rw [decodeOnto, decodeOnto, ← ih]
      rfl

theorem decodeOnto_nil : decodeOnto [] [] = [] := by
  rw [decodeOnto]
  rfl

theorem decodeOnto_cons (lead : UInt8) (rest : Bytes) :
    decodeOnto [] (lead :: rest)
      = (firstChar lead rest).1 :: decodeOnto [] (rest.drop (firstChar lead rest).2) := by
  rw [decodeOnto]
  exact decodeOnto_append [] _ [_]

theorem toList_decode (bytes : Bytes) : (decode bytes).toList = decodeOnto [] bytes :=
  String.toList_ofList

theorem decodeOnto_encoded (chars : List Char) (rest : Bytes) :
    decodeOnto [] (chars.flatMap String.utf8EncodeChar ++ rest) = chars ++ decodeOnto [] rest := by
  induction chars with
  | nil => rfl
  | cons char chars ih =>
      have spelling := spelling_encodeChar char
      rw [List.flatMap_cons, List.append_assoc]
      generalize String.utf8EncodeChar char = spelled at spelling
      obtain ⟨lead, tail, rfl⟩ : ∃ lead tail, spelled = lead :: tail := by
        cases spelling <;> exact ⟨_, _, rfl⟩
      rw [List.cons_append, decodeOnto_cons, spelling.firstChar_eq, List.drop_left, ih]
      rfl

theorem encoded_decodeOnto : (bytes : Bytes) → replacement ∉ decodeOnto [] bytes →
    (decodeOnto [] bytes).flatMap String.utf8EncodeChar = bytes
  | [], _ => by
      rw [decodeOnto_nil]
      rfl
  | lead :: rest, known => by
      rw [decodeOnto_cons, List.mem_cons, not_or] at known
      have spelling := firstChar_spelled (Ne.symm known.1)
      have later := encoded_decodeOnto (rest.drop (firstChar lead rest).2) known.2
      rw [decodeOnto_cons, List.flatMap_cons, spelling.encoded, later, List.cons_append,
        List.take_append_drop]
termination_by bytes => bytes.length
decreasing_by
  rw [List.length_drop, List.length_cons]
  omega

theorem decode_ofString (string : String) : decode (Bytes.ofString string) = string := by
  rw [← String.toList_inj, toList_decode, Bytes.ofString_eq]
  have read := decodeOnto_encoded string.toList []
  rwa [List.append_nil, decodeOnto_nil, List.append_nil] at read

theorem ofString_decode (known : replacement ∉ (decode bytes).toList) :
    Bytes.ofString (decode bytes) = bytes := by
  rw [toList_decode] at known
  rw [Bytes.ofString_eq, toList_decode, encoded_decodeOnto bytes known]

theorem WellFormed.eq_of_decode (formed : WellFormed bytes) (also : WellFormed other)
    (same : decode other = decode bytes) : other = bytes := by
  obtain ⟨string, rfl⟩ := formed
  obtain ⟨_, rfl⟩ := also
  rw [decode_ofString, decode_ofString] at same
  rw [same]

theorem spelled_once_iff :
    (∀ other, decode other = decode bytes → other = bytes) ↔ replacement ∉ (decode bytes).toList := by
  constructor
  · intro once holds
    obtain ⟨before, after, parts⟩ := List.append_of_mem holds
    -- A byte that begins no character is read as the three bytes of U+FFFD are.
    have read (spelled : Bytes) (one : ∀ rest, decodeOnto [] (spelled ++ rest)
        = replacement :: decodeOnto [] rest) :
        before.flatMap String.utf8EncodeChar ++ (spelled ++ after.flatMap String.utf8EncodeChar)
          = bytes := by
      apply once
      have last := decodeOnto_encoded after []
      rw [List.append_nil, decodeOnto_nil, List.append_nil] at last
      rw [← String.toList_inj, toList_decode, decodeOnto_encoded, one, last, parts]
    have broken := read [0xFF] fun rest => decodeOnto_cons 0xFF rest
    have whole := read (String.utf8EncodeChar replacement) fun rest => by
      have encoded := decodeOnto_encoded [replacement] rest
      rwa [List.flatMap_singleton] at encoded
    rw [← whole, List.append_cancel_left_eq] at broken
    cases broken
  · intro known other same
    have read : replacement ∉ (decode other).toList := same ▸ known
    rw [← ofString_decode read, ← ofString_decode known, same]

end Texts

end Text

end Calculator
