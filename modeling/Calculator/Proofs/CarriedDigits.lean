import Calculator.Proofs.DividedCopies
import Calculator.Proofs.NumeratorBits

/-!
# Digits through blocks

The words of a numerator can be copied into a block and from there into a number that is zero: what is
left there is the magnitude of the numerator. It does not matter where in the block they lie, nor into
which ranges they are cut and in which order these are carried over.
-/

namespace Calculator

theorem testBit_replaceBits_same (magnitude other start width bit : Nat) :
    (replaceBits magnitude start width (other / 2 ^ start % 2 ^ width)).testBit bit
      = if start ≤ bit ∧ bit < start + width then other.testBit bit else magnitude.testBit bit := by
  rw [testBit_replaceBits _ _ (Nat.mod_lt _ (Nat.two_pow_pos width))]
  by_cases inside : start ≤ bit ∧ bit < start + width
  · have within : bit - start < width := by omega
    rw [if_pos inside, if_pos inside, Nat.testBit_mod_two_pow, Nat.testBit_div_two_pow,
      decide_eq_true within, Bool.true_and, Nat.sub_add_cancel inside.1]
  · rw [if_neg inside, if_neg inside]

namespace Word

theorem magnitude_select (words : List UInt32) (start count : Nat) :
    (image (Copy.select words start count)).magnitude
      = toNat words / 2 ^ (32 * start) % 2 ^ (32 * count) := by
  have small (words : List UInt32) : ∀ value ∈ words.map UInt32.toNat, value < base := by
    intro value member
    obtain ⟨word, _, rfl⟩ := List.mem_map.mp member
    exact word.toNat_lt
  have bits (places : Nat) : 2 ^ (32 * places) = base ^ places := Nat.pow_mul 2 32 places
  have spelled (words : List UInt32) : toNat words = Nat.ofDigits base (words.map UInt32.toNat) := by
    rw [toNat, Positional.value_eq, Positional.sum_eq_ofDigits]
  rw [magnitude_image, Copy.select_natCast, spelled, spelled, List.map_take, List.map_drop, bits, bits,
    Nat.ofDigits_div_pow_eq_ofDigits_drop start (by decide) _ (small words),
    Nat.ofDigits_mod_pow_eq_ofDigits_take count (by decide)]
  intro value member
  exact small words value (List.mem_of_mem_drop member)

end Word

namespace Number

theorem toNat_numeratorWords (number : Number) :
    Word.toNat number.numeratorWords = number.num.natAbs := by
  rw [← Word.magnitude_image]
  exact number.numeratorBytes_magnitude

theorem ofInt_overwriteNumerator (magnitude start : Nat) (bytes : Bytes) :
    (ofInt magnitude).overwriteNumerator start bytes
      = ofInt (replaceBits magnitude (32 * start) (8 * bytes.length) bytes.magnitude : Nat) := by
  have positive : decide ((ofInt magnitude).num < 0) = false :=
    decide_eq_false (Int.not_lt.mpr (Int.natCast_nonneg magnitude))
  have whole : (ofInt magnitude).num.natAbs = magnitude := Int.natAbs_natCast magnitude
  rw [overwriteNumerator_eq Int.one_pos, patchedNumerator_eq, replacedNumerator, positive, whole,
    ofInt_eq]
  exact congrArg ofRat (Rat.divInt_one _)

end Number

theorem Number.eq_natAbs (number : Number) {magnitude : Nat}
    (inside : ∀ bit < 32 * number.numeratorLength, magnitude.testBit bit = number.num.natAbs.testBit bit)
    (above : ∀ bit, 32 * number.numeratorLength ≤ bit → magnitude.testBit bit = false) :
    magnitude = number.num.natAbs := by
  apply Nat.eq_of_testBit_eq
  intro bit
  by_cases within : bit < 32 * number.numeratorLength
  · exact inside bit within
  · have high := Nat.pow_le_pow_right (n := 2) (by decide) (Nat.not_lt.mp within)
    rw [above bit (Nat.not_lt.mp within),
      Nat.testBit_lt_two_pow (Nat.lt_of_lt_of_le number.natAbs_lt high)]

namespace Copy

variable {machine : Machine} {source destination : Value}

def Counts (value : Value) (magnitude : Nat) : Prop :=
  ∃ payload, value.data = .number payload ∧ payload.content = Number.ofInt magnitude

/-- A block that can be copied goes over the bits of an integer. -/
theorem copy_into_integer {block : Block} {magnitude : Nat} (counts : Counts destination magnitude)
    (stands : blockOf machine.blocks source = .ok block)
    (free : Unprotected machine.blocks source destination) (start count place : Nat)
    (exclusive : Bool) :
    ∃ after, copy source start count destination place exclusive machine = (.ok after, machine)
      ∧ SameRole after destination
      ∧ Counts after (replaceBits magnitude (32 * place) (8 * (select block.data start count).length)
          (Bytes.magnitude (select block.data start count))) := by
  obtain ⟨payload, held, content⟩ := counts
  have indexed := Int.natCast_nonneg start
  obtain ⟨result, answered⟩ := copy_number_succeeds held stands free indexed count place exclusive
  have gathered := bytesForBlock_of_block stands start count
  have forward : ¬ (place : Int) < 0 := Int.not_lt.mpr (Int.natCast_nonneg place)
  rw [(copy_answered answered).2, route, Int.toNat_natCast]
  simp only [Effect.get_bind_run, held, gathered, Effect.lift_ok_bind_run]
  by_cases none : select block.data start count = []
  · rw [if_pos (List.isEmpty_iff.mpr none)]
    refine ⟨destination, rfl, ⟨rfl, rfl, rfl, rfl⟩, payload, held, ?_⟩
    have canonical : (Number.ofInt magnitude).Canonical := Number.ofRat_canonical magnitude
    rw [none, ← Number.ofInt_overwriteNumerator, canonical.overwriteNumerator_nil, content]
  · rw [if_neg (mt List.isEmpty_iff.mp none)]
    refine ⟨_, rfl, ?_, _, rfl, ?_⟩
    · constructor <;> simp [Value.kind, Data.kind, sourceBlock?, destinationBlock?, held]
    · rw [Payload.fresh, intoNumber, if_neg forward, Int.toNat_natCast, content]
      exact Number.ofInt_overwriteNumerator _ _ _

/-- The value stands for a sound block that may grow, and nothing protects the source, the block or the
target on the way from the one through the block to the other. -/
structure Relays (blocks : NamedBlocks) (source target via : Value) : Prop where
  held : ∃ block, blockOf blocks via = .ok block ∧ block.Sound
  grows : mayGrow blocks via = true
  filled : Unprotected blocks source via
  emptied : Unprotected blocks via target

/-- A sound block is still one once a sound block is put somewhere. -/
theorem held_replaced {value : Value} {new : Block}
    (held : ∃ block, blockOf machine.blocks value = .ok block ∧ block.Sound) (sound : new.Sound)
    (changed : Value) :
    ∃ block, blockOf (replaced machine changed new).2.blocks value = .ok block ∧ block.Sound := by
  obtain ⟨block, stands, whole⟩ := held
  unfold replaced
  cases shape : changed.data with
  | namedBlock id =>
      rcases blockOf_ok stands with direct | ⟨other, named, names, listed, storage⟩
      · exact ⟨block, by rw [blockOf, direct], whole⟩
      · by_cases same : other = id
        · refine ⟨new, ?_, sound⟩
          simp only [blockOf, names, NamedBlocks.storage?, same, NamedBlocks.get?_setStorage_self]
          rw [← same, listed]
          rfl
        · refine ⟨block, ?_, whole⟩
          simp only [blockOf, names, NamedBlocks.storage?, NamedBlocks.get?_setStorage_ne _ same, listed,
            storage, Option.bind_some]
  | _ => exact ⟨block, stands, whole⟩

theorem Relays.replaced {target other via : Value} {new : Block}
    (relays : Relays machine.blocks source target via) (role : SameRole other target)
    (sound : new.Sound) (changed : Value) :
    Relays (replaced machine changed new).2.blocks source other via where
  held := held_replaced relays.held sound changed
  grows := by rw [mayGrow_replaced, relays.grows]
  filled := relays.filled.replaced changed new
  emptied := (relays.emptied.replaced changed new).sameRole (.refl via) role

theorem select_patch (data : Bytes) (position : Nat) (bytes : Bytes) :
    select (data.patch position bytes) position bytes.length = bytes := by
  rw [select_natCast]
  by_cases nothing : bytes = []
  · rw [nothing, List.length_nil, List.take_zero]
  · exact data.take_drop_patch position nothing

theorem select_words_length {number : Number} {start taken : Nat}
    (inside : start + taken ≤ number.numeratorLength) :
    (select number.numeratorWords start taken).length = taken := by
  rw [Number.numeratorLength] at inside
  rw [select_length, clamp_natCast]
  omega

/-- Words that are copied into a block are selected where they were put. -/
theorem words_fill_block {target via : Value} {number : Payload Number}
    (held : source.data = .number number) (relays : Relays machine.blocks source target via)
    {start taken : Nat} {count : Int}
    (selected : select number.content.numeratorWords start count
      = select number.content.numeratorWords start taken)
    (inside : start + taken ≤ number.content.numeratorLength) (position : Nat) (exclusive : Bool) :
    ∃ old new, blockOf machine.blocks via = .ok old
      ∧ copy source start count via position exclusive machine
        = (.ok (replaced machine via new).1, (replaced machine via new).2)
      ∧ new.Sound
      ∧ select new.data position (4 * taken : Nat)
        = Word.image (select number.content.numeratorWords start taken) := by
  obtain ⟨old, stands, sound⟩ := relays.held
  have routed : Kind.block ∈ reaches source.kind := by
    have kind : source.kind = .number := by
      rw [Value.kind, held]
      rfl
    rw [kind]
    decide
  obtain ⟨bytes, new, gathered, copied, whole, shown⟩ := copy_grows stands sound relays.grows
    relays.filled routed (Int.natCast_nonneg start) count position exclusive
  have words : bytes = Word.image (select number.content.numeratorWords start taken) := by
    rw [bytesForBlock, held, Int.toNat_natCast] at gathered
    dsimp only at gathered
    rw [selected] at gathered
    exact (Except.ok.inj gathered).symm
  have length : bytes.length = 4 * taken := by
    rw [words, Word.image_length, select_words_length inside]
    rfl
  have data : new.data = old.data.patch position bytes := by
    have forward : ¬ (position : Int) < 0 := Int.not_lt.mpr (Int.natCast_nonneg position)
    have view := congrArg Block.View.data shown
    rwa [if_neg forward, Int.toNat_natCast, Block.View.stored_data] at view
  refine ⟨old, new, stands, copied, whole, ?_⟩
  rw [data, ← length, select_patch, words]

/-- Words that go through a block stand in the place of as many words of an integer. -/
theorem carry_step {target via : Value} {number : Payload Number} {magnitude : Nat}
    (held : source.data = .number number) (relays : Relays machine.blocks source target via)
    (counts : Counts target magnitude) (start : Nat) {taken : Nat} {count : Int}
    (selected : select number.content.numeratorWords start count
      = select number.content.numeratorWords start taken)
    (inside : start + taken ≤ number.content.numeratorLength) (position : Nat) (exclusive : Bool) :
    ∃ filled middle after,
      copy source start count via position exclusive machine = (.ok filled, middle)
      ∧ copy filled position (4 * taken : Nat) target start exclusive middle = (.ok after, middle)
      ∧ Counts after (replaceBits magnitude (32 * start) (32 * taken)
          (number.content.num.natAbs / 2 ^ (32 * start) % 2 ^ (32 * taken)))
      ∧ ∀ other, Relays machine.blocks source target other →
        Relays middle.blocks source after other := by
  obtain ⟨old, new, stands, copied, whole, back⟩ :=
    words_fill_block held relays selected inside position exclusive
  have role := replaced_role stands new
  obtain ⟨after, emptied, kept, left⟩ := copy_into_integer counts (blockOf_replaced stands new)
    ((relays.emptied.replaced via new).sameRole role (.refl target)) position (4 * taken) start
    exclusive
  refine ⟨_, _, after, copied, emptied, ?_, fun other others => others.replaced kept whole via⟩
  rw [back, Word.image_length, select_words_length inside, Word.magnitude_select,
    Number.toNat_numeratorWords] at left
  have bits : 8 * (Word.size * taken) = 32 * taken := by
    rw [Word.size]
    omega
  rwa [bits] at left

/-- A range of words, and the block through which it goes from a position on. -/
structure Passage where
  start : Nat
  count : Nat
  via : Value
  position : Nat

namespace Passage

def range (passage : Passage) : Nat × Nat :=
  (passage.start, passage.count)

def Covers (passage : Passage) (bit : Nat) : Prop :=
  32 * passage.start ≤ bit ∧ bit < 32 * (passage.start + passage.count)

def carry (source : Value) (exclusive : Bool) (target : Value) (passage : Passage) : CopyM Value := do
  let filled ← copy source passage.start passage.count passage.via passage.position exclusive
  copy filled passage.position (4 * passage.count : Nat) target passage.start exclusive

end Passage

def carryAll (source : Value) (exclusive : Bool) (passages : List Passage) (target : Value) :
    CopyM Value :=
  passages.foldlM (Passage.carry source exclusive) target

/-- Ranges that are carried over leave their bits, and all other bits stay. -/
theorem carryAll_bits {number : Payload Number} (held : source.data = .number number)
    (exclusive : Bool) (passages : List Passage) {machine : Machine} {target : Value} {magnitude : Nat}
    (counts : Counts target magnitude)
    (inside : ∀ passage ∈ passages, passage.start + passage.count ≤ number.content.numeratorLength)
    (relays : ∀ passage ∈ passages, Relays machine.blocks source target passage.via) :
    ∃ after last total, carryAll source exclusive passages target machine = (.ok after, last)
      ∧ Counts after total
      ∧ ∀ bit, ((∃ passage ∈ passages, passage.Covers bit) →
            total.testBit bit = number.content.num.natAbs.testBit bit)
          ∧ ((¬ ∃ passage ∈ passages, passage.Covers bit) →
            total.testBit bit = magnitude.testBit bit) := by
  induction passages generalizing machine target magnitude with
  | nil => exact ⟨target, machine, magnitude, rfl, counts, fun bit => ⟨by simp, fun _ => rfl⟩⟩
  | cons passage rest ih =>
      obtain ⟨filled, middle, next, began, carried, stepped, onward⟩ := carry_step held
        (relays passage List.mem_cons_self) counts passage.start rfl
        (inside passage List.mem_cons_self) passage.position exclusive
      obtain ⟨after, last, total, ran, left, bits⟩ := ih stepped
        (fun other member => inside other (List.mem_cons_of_mem _ member))
        (fun other member => onward _ (relays other (List.mem_cons_of_mem _ member)))
      have crossed : passage.carry source exclusive target machine = (.ok next, middle) := by
        rw [Passage.carry, Effect.bind_ok began]
        exact carried
      refine ⟨after, last, total, ?_, left, ?_⟩
      · rw [carryAll, List.foldlM_cons, Effect.bind_ok crossed]
        exact ran
      · intro bit
        obtain ⟨covered, uncovered⟩ := bits bit
        have here := testBit_replaceBits_same magnitude number.content.num.natAbs (32 * passage.start)
          (32 * passage.count) bit
        rw [← Nat.mul_add] at here
        -- What a later range covers is its own; the rest is as this range left it.
        by_cases later : ∃ passage ∈ rest, passage.Covers bit
        · refine ⟨fun _ => covered later, fun none => ?_⟩
          obtain ⟨other, member, covers⟩ := later
          exact absurd ⟨other, List.mem_cons_of_mem _ member, covers⟩ none
        · rw [uncovered later, here]
          refine ⟨fun ⟨other, member, covers⟩ => ?_, fun none => ?_⟩
          · rcases List.mem_cons.mp member with rfl | member
            · exact if_pos covers
            · exact absurd ⟨other, member, covers⟩ later
          · exact if_neg fun covers => none ⟨passage, List.mem_cons_self, covers⟩

def ranges : Nat → List Nat → List (Nat × Nat)
  | _, [] => []
  | start, count :: rest => (start, count) :: ranges (start + count) rest

theorem ranges_inside {start : Nat} {cuts : List Nat} {range : Nat × Nat}
    (member : range ∈ ranges start cuts) :
    start ≤ range.1 ∧ range.1 + range.2 ≤ start + cuts.sum := by
  induction cuts generalizing start with
  | nil => cases member
  | cons count rest ih =>
      rw [List.sum_cons]
      rcases List.mem_cons.mp member with rfl | member
      · dsimp only
        omega
      · have bounds := ih member
        omega

theorem ranges_cover {start word : Nat} {cuts : List Nat} (after : start ≤ word)
    (before : word < start + cuts.sum) :
    ∃ range ∈ ranges start cuts, range.1 ≤ word ∧ word < range.1 + range.2 := by
  induction cuts generalizing start with
  | nil =>
      rw [List.sum_nil] at before
      omega
  | cons count rest ih =>
      rw [List.sum_cons] at before
      by_cases here : word < start + count
      · exact ⟨(start, count), List.mem_cons_self, after, here⟩
      · obtain ⟨range, member, covers⟩ := ih (Nat.le_of_not_lt here) (by omega)
        exact ⟨range, List.mem_cons_of_mem _ member, covers⟩

end Copy

open Copy

/-- The words of a numerator go through a block into a number that is zero, and leave its magnitude
there: all at once, and range by range in any order. -/
theorem digits_are_carried {machine : Machine} {source target : Value} {number : Payload Number}
    (held : source.data = .number number) (zero : Counts target 0) (exclusive : Bool) :
    (∀ via (position : Nat), Relays machine.blocks source target via →
        ∃ filled middle after,
          copy source 0 (-1) via position exclusive machine = (.ok filled, middle)
          ∧ copy filled position (4 * number.content.numeratorLength : Nat) target 0 exclusive middle
            = (.ok after, middle)
          ∧ Counts after number.content.num.natAbs)
      ∧ ∀ cuts passages, cuts.sum = number.content.numeratorLength →
          (passages.map Passage.range).Perm (ranges 0 cuts) →
          (∀ passage ∈ passages, Relays machine.blocks source target passage.via) →
          ∃ after last, carryAll source exclusive passages target machine = (.ok after, last)
            ∧ Counts after number.content.num.natAbs := by
  constructor
  · intro via position relays
    have all : select number.content.numeratorWords 0 (-1)
        = select number.content.numeratorWords 0 number.content.numeratorLength := by
      rw [select_all, select_natCast, Number.numeratorLength, List.drop_zero, List.take_length]
    obtain ⟨filled, middle, after, copied, emptied, left, _⟩ :=
      carry_step held relays zero 0 all (Nat.le_of_eq (Nat.zero_add _)) position exclusive
    refine ⟨filled, middle, after, copied, emptied, ?_⟩
    refine (congrArg (Counts after) (number.content.eq_natAbs ?_ ?_)).mp left
    · intro bit inside
      rw [testBit_replaceBits_same, if_pos (by omega)]
    · intro bit above
      rw [testBit_replaceBits_same, if_neg (by omega), Nat.zero_testBit]
  · intro cuts passages whole permuted relays
    have inside (passage : Passage) (member : passage ∈ passages) :
        passage.start + passage.count ≤ number.content.numeratorLength := by
      have bounds := ranges_inside (permuted.mem_iff.mp (List.mem_map_of_mem member))
      rw [Passage.range, whole] at bounds
      omega
    obtain ⟨after, last, total, ran, left, bits⟩ :=
      carryAll_bits held exclusive passages zero inside relays
    refine ⟨after, last, ran, (congrArg (Counts after) (number.content.eq_natAbs ?_ ?_)).mp left⟩
    · intro bit below
      have within : bit / 32 < 0 + cuts.sum := by omega
      obtain ⟨range, listed, covers⟩ := ranges_cover (Nat.zero_le _) within
      obtain ⟨passage, member, rfl⟩ := List.mem_map.mp (permuted.mem_iff.mpr listed)
      apply (bits bit).1 ⟨passage, member, ?_⟩
      unfold Passage.Covers
      dsimp only [Passage.range] at covers
      omega
    · intro bit above
      rw [(bits bit).2, Nat.zero_testBit]
      rintro ⟨passage, member, covers⟩
      have bound := inside passage member
      unfold Passage.Covers at covers
      omega

namespace DigitsSample

def source : Value := .ofNumber ⟨-(5 * 2 ^ 32 + 7), 2⟩

def target : Value := .ofInt 0

def block : Value := .ofNamedBlock ⟨0⟩

def passages : List Passage := [⟨1, 1, block, 3⟩, ⟨0, 1, block, 0⟩]

/-- At once and word by word they leave the same magnitude. -/
theorem words_leave_magnitude :
    (∃ filled middle after, copy source 0 (-1) block 9 false oneBlock = (.ok filled, middle)
        ∧ copy filled 9 8 target 0 false middle = (.ok after, middle)
        ∧ Counts after (5 * 2 ^ 32 + 7))
      ∧ ∃ after last, carryAll source false passages target oneBlock = (.ok after, last)
        ∧ Counts after (5 * 2 ^ 32 + 7) := by
  have zero : Counts target 0 := ⟨_, rfl, rfl⟩
  have relays : Relays oneBlock.blocks source target block := by
    refine ⟨⟨_, rfl, Block.ofBytes_sound [1, 2, 3] 2⟩, rfl, ⟨by decide, by decide, nofun, ?_⟩,
      ⟨by decide, by decide, ?_, nofun⟩⟩
    · rintro _ ⟨⟩
      exact ⟨_, rfl, rfl, rfl⟩
    · rintro _ ⟨⟩
      exact ⟨_, rfl, rfl, rfl⟩
  obtain ⟨whole, parts⟩ := @digits_are_carried oneBlock source target _ rfl zero false
  refine ⟨whole block 9 relays, parts [1, 1] passages rfl (.swap _ _ _) ?_⟩
  intro passage member
  rcases List.mem_cons.mp member with rfl | member
  · exact relays
  · rw [List.mem_singleton.mp member]
    exact relays

end DigitsSample

end Calculator
