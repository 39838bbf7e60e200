import Calculator.Proofs.Block
import Calculator.Proofs.Gateway
import Calculator.Proofs.Numerals
import Mathlib.Order.Bounds.Defs

/-!
# Copies into blocks

A source offers units, each of some bytes. A copy into a block takes the units from an index on and
writes their bytes one behind the other, a text with a NUL behind them. They are the bytes that the
source had before the copy, also when the block is copied into itself.
-/

namespace Calculator.Copy

def octetBytes (blocks : NamedBlocks) : OctetTarget → Bytes
  | .text payload => payload.content
  | .namedBlock id => ((blocks.storage? id).map Block.data).getD []

/-- A number has a unit for each digit of its numerator to the base 2 ^ 32, of four bytes, the low ones
first. Zero has one such digit. -/
def wordUnits (number : Number) : List Bytes :=
  let digits := if number.num = 0 then [0] else Nat.digits (2 ^ 32) number.num.natAbs
  digits.map fun digit =>
    [digit.toUInt8, (digit / 2 ^ 8).toUInt8, (digit / 2 ^ 16).toUInt8, (digit / 2 ^ 24).toUInt8]

/-- An element has one byte: of the integer part of a number without its sign the lowest eight bits, of
a complex number those of its real part, of a text or block the first byte, and of an octet the byte that
it points to. Where there is no such byte it is zero. -/
def elementByte (blocks : NamedBlocks) (element : Value) : UInt8 :=
  match element.data with
  | .number payload => (payload.content.num.natAbs / payload.content.den.natAbs % 256).toUInt8
  | .complex re _ => (re.content.num.natAbs / re.content.den.natAbs % 256).toUInt8
  | .text payload => payload.content.headD 0
  | .block block => block.data.headD 0
  | .namedBlock id => (((blocks.storage? id).map Block.data).getD []).headD 0
  | .octet target index => (octetBytes blocks target).getD index 0
  | _ => 0

/-- The units of a source, as a block takes them. -/
def units (blocks : NamedBlocks) (source : Value) : List Bytes :=
  match source.data with
  | .block block => block.data.map fun byte => [byte]
  | .namedBlock id => (((blocks.storage? id).map Block.data).getD []).map fun byte => [byte]
  | .text payload => payload.content.map fun byte => [byte]
  | .octet target index =>
      (((octetBytes blocks target).drop index).takeWhile (· != 0) ++ [0]).map fun byte => [byte]
  | .number payload => wordUnits payload.content
  | .matrix _ slots => slots.map fun slot => [elementByte blocks slot]
  | _ => []

/-- What stands behind the units that are copied. -/
def terminator (source : Value) : Bytes :=
  match source.data with
  | .text _ => [0]
  | _ => []

/-- How many units are taken: all from the start on, or the number that is asked for where it is not
negative and there are as many. -/
def unitCount (blocks : NamedBlocks) (source : Value) (start : Nat) (count : Int) : Nat :=
  let rest := (units blocks source).length - start
  if count < 0 then rest else min rest count.toNat

def image (blocks : NamedBlocks) (source : Value) (start : Nat) (count : Int) : Bytes :=
  (((units blocks source).drop start).take (unitCount blocks source start count)).flatten
    ++ terminator source

theorem toBytes_toUInt32 {digit : Nat} (small : digit < 2 ^ 32) :
    Word.toBytes digit.toUInt32
      = [digit.toUInt8, (digit / 2 ^ 8).toUInt8, (digit / 2 ^ 16).toUInt8, (digit / 2 ^ 24).toUInt8] := by
  have whole : digit.toUInt32.toNat = digit := UInt32.toNat_ofNat_of_lt small
  have eight : (8 : UInt32).toNat % 32 = 8 := rfl
  have sixteen : (16 : UInt32).toNat % 32 = 16 := rfl
  have twentyFour : (24 : UInt32).toNat % 32 = 24 := rfl
  have byte (number : Nat) (word : UInt32) (same : word.toNat = number) :
      word.toUInt8 = number.toUInt8 := by
    apply UInt8.toNat_inj.mp
    rw [UInt32.toNat_toUInt8, same]
    exact (UInt8.toNat_ofNat').symm
  rw [Word.toBytes, byte digit _ whole, byte (digit / 2 ^ 8), byte (digit / 2 ^ 16),
    byte (digit / 2 ^ 24)]
  all_goals rw [UInt32.toNat_shiftRight, whole, Nat.shiftRight_eq_div_pow]
  · rw [twentyFour]
  · rw [sixteen]
  · rw [eight]

theorem wordUnits_eq (number : Number) :
    wordUnits number = number.numeratorWords.map Word.toBytes := by
  have base : Word.base = 2 ^ 32 := rfl
  rw [wordUnits, Number.numeratorWords, Number.magnitudeWords]
  by_cases zero : number.num = 0
  · rw [if_pos zero, if_pos (Int.natAbs_eq_zero.mpr zero)]
    rfl
  · rw [if_neg zero, if_neg (mt Int.natAbs_eq_zero.mp zero), Word.ofNat,
      Positional.digits_eq (by decide), base, List.map_map]
    apply List.map_congr_left
    intro digit member
    exact (toBytes_toUInt32 (Nat.digits_lt_base (by decide) member)).symm

theorem lowOctet_eq (number : Number) :
    number.lowOctet = (number.num.natAbs / number.den.natAbs % 256).toUInt8 := by
  rw [Number.lowOctet, Number.integerPart, Int.natAbs_tdiv]
  apply UInt8.toNat_inj.mp
  simp only [Nat.toUInt8, UInt8.toNat_ofNat', Nat.mod_mod]
  rfl

theorem octetOf_eq_elementByte (blocks : NamedBlocks) (element : Value) :
    octetOf blocks element = elementByte blocks element := by
  have first (block : Block) : block.byteAt 0 = block.data.headD 0 := by
    rw [block.byteAt_eq, List.headD_eq_head?_getD, List.head?_eq_getElem?]
    rfl
  unfold octetOf elementByte Value.octet
  cases shape : element.data with
  | number payload => exact lowOctet_eq payload.content
  | complex re im => exact lowOctet_eq re.content
  | block block => exact first block
  | namedBlock id =>
      cases stored : blocks.storage? id with
      | none => simp only [stored, Option.map_none, Option.getD_none, List.headD_nil]
      | some block => simp only [stored, Option.map_some, Option.getD_some, first]
  | octet target index =>
      cases target with
      | text payload => rfl
      | namedBlock id =>
          cases stored : blocks.storage? id with
          | none => simp [octetBytes, stored]
          | some block => simp only [octetBytes, stored, Option.map_some, Option.getD_some, block.byteAt_eq]
  | _ => rfl

/-- How many units a copy takes: as many as there are, but no more than are asked for. -/
theorem clamp_isGreatest (length start : Nat) (count : Int) :
    IsGreatest {taken : Nat | taken ≤ length - start ∧ (0 ≤ count → (taken : Int) ≤ count)}
      (clamp length start count) := by
  rw [clamp]
  split
  · rename_i negative
    exact ⟨⟨Nat.le_refl _, fun counted => absurd negative (Int.not_lt.mpr counted)⟩,
      fun taken within => within.1⟩
  · rename_i counted
    refine ⟨⟨Nat.min_le_left _ _, fun _ => ?_⟩, fun taken ⟨within, asked⟩ => ?_⟩
    · omega
    · have bound := asked (Int.not_lt.mp counted)
      exact Nat.le_min.mpr ⟨within, by omega⟩

theorem getElem?_select {α : Type} (units : List α) (start : Nat) (count : Int) (index : Nat) :
    (select units start count)[index]?
      = if index < clamp units.length start count then units[start + index]? else none := by
  rw [select, List.getElem?_take, List.getElem?_drop]

theorem unitCount_eq (blocks : NamedBlocks) (source : Value) (start : Nat) (count : Int) :
    unitCount blocks source start count = clamp (units blocks source).length start count :=
  rfl

theorem image_of_units {α : Type} {blocks : NamedBlocks} {source : Value} {elements : List α}
    {bytes : α → Bytes} (offered : units blocks source = elements.map bytes) (start : Nat)
    (count : Int) :
    image blocks source start count
      = (select elements start count).flatMap bytes ++ terminator source := by
  rw [image, unitCount_eq, offered, List.length_map, ← List.map_drop, ← List.map_take]
  rfl

theorem image_of_bytes {blocks : NamedBlocks} {source : Value} {elements : Bytes}
    (offered : units blocks source = elements.map fun byte => [byte]) (start : Nat) (count : Int) :
    image blocks source start count = select elements start count ++ terminator source := by
  rw [image_of_units offered, List.flatMap_singleton']

theorem select_all {α : Type} (units : List α) : select units 0 (-1) = units := by
  rw [select, clamp, if_pos (by decide), List.drop_zero, Nat.sub_zero, List.take_length]

theorem selectBytes_eq (block : Block) (start : Nat) (count : Int) :
    selectBytes block start count = select block.data start count := by
  rw [selectBytes, Block.slice_eq, select, block.data_length]

theorem bytesForBlock_of_block {blocks : NamedBlocks} {source : Value} {block : Block}
    (stands : blockOf blocks source = .ok block) (start : Nat) (count : Int) :
    bytesForBlock blocks source start count = .ok (select block.data start count) := by
  rw [← selectBytes_eq, bytesForBlock]
  rcases blockOf_ok stands with direct | ⟨id, named, names, _, _⟩
  · simp only [direct, stands]
    rfl
  · simp only [names, stands]
    rfl

theorem clamp_le (length start : Nat) (count : Int) : clamp length start count ≤ length - start := by
  rw [clamp]
  split
  · exact Nat.le_refl _
  · exact Nat.min_le_left _ _

theorem select_nonempty {α : Type} {elements : List α} {start : Nat} {count : Int}
    (selected : 0 < clamp elements.length start count) : select elements start count ≠ [] := by
  have bound := clamp_le elements.length start count
  intro nothing
  have length := congrArg List.length nothing
  rw [select, List.length_take, List.length_drop, List.length_nil] at length
  omega

theorem unit_nonempty {blocks : NamedBlocks} {source : Value} {unit : Bytes}
    (offered : unit ∈ units blocks source) : unit ≠ [] := by
  have single (bytes : Bytes) (member : unit ∈ bytes.map fun byte => [byte]) : unit ≠ [] := by
    obtain ⟨byte, _, rfl⟩ := List.mem_map.mp member
    exact List.cons_ne_nil _ _
  unfold units at offered
  split at offered
  · exact single _ offered
  · exact single _ offered
  · exact single _ offered
  · exact single _ offered
  · obtain ⟨digit, _, rfl⟩ := List.mem_map.mp offered
    exact List.cons_ne_nil _ _
  · obtain ⟨slot, _, rfl⟩ := List.mem_map.mp offered
    exact List.cons_ne_nil _ _
  · cases offered

theorem image_nonempty {blocks : NamedBlocks} {source : Value} {start : Nat} {count : Int}
    (selected : 0 < unitCount blocks source start count) : image blocks source start count ≠ [] := by
  have taken : select (units blocks source) start count ≠ [] := select_nonempty selected
  obtain ⟨first, rest, split⟩ := List.exists_cons_of_ne_nil taken
  have offered : first ∈ units blocks source := by
    apply List.mem_of_mem_drop
    apply List.mem_of_mem_take
    rw [select] at split
    rw [split]
    exact List.mem_cons_self
  intro nothing
  have written : (select (units blocks source) start count).flatten ++ terminator source = [] := nothing
  rw [split, List.flatten_cons] at written
  simp [unit_nonempty offered] at written

theorem octetRun_eq {blocks : NamedBlocks} {target : OctetTarget} {index : Nat} {run : Bytes}
    (read : octetRun blocks target index = .ok run) :
    run = ((octetBytes blocks target).drop index).takeWhile (· != 0) := by
  unfold octetRun at read
  cases target with
  | text payload =>
      cases read
      rfl
  | namedBlock id =>
      cases stored : blocks.storage? id with
      | none => simp only [stored] at read; cases read
      | some block =>
          simp only [stored] at read
          cases read
          have rest : block.slice index (block.length - index) = block.data.drop index := by
            rw [Block.slice_eq, List.take_of_length_le]
            exact Nat.le_of_eq (by rw [List.length_drop, block.data_length])
          rw [rest, octetBytes, stored]
          rfl

theorem blockOf_data {blocks : NamedBlocks} {source : Value} {block : Block}
    (held : blockOf blocks source = .ok block) :
    units blocks source = block.data.map (fun byte => [byte]) ∧ terminator source = [] := by
  unfold units terminator
  rcases blockOf_ok held with direct | ⟨id, named, names, listed, storage⟩
  · rw [direct]
    exact ⟨rfl, rfl⟩
  · have stored : blocks.storage? id = some block := by
      rw [NamedBlocks.storage?, listed, Option.bind_some, storage]
    rw [names]
    simp only [stored, Option.map_some, Option.getD_some, and_self]

theorem bytesForBlock_eq {blocks : NamedBlocks} {source : Value} {start : Nat} {count : Int}
    {bytes : Bytes} (gathered : bytesForBlock blocks source start count = .ok bytes)
    (selected : 0 < unitCount blocks source start count) :
    bytes = image blocks source start count := by
  unfold bytesForBlock at gathered
  cases shape : source.data with
  | text payload =>
      have offered : units blocks source = payload.content.map fun byte => [byte] := by
        rw [units, shape]
      have behind : terminator source = [0] := by rw [terminator, shape]
      rw [unitCount_eq, offered, List.length_map] at selected
      simp only [shape] at gathered
      cases gathered
      rw [image_of_bytes offered, behind, if_neg (by simpa using select_nonempty selected)]
  | octet target index =>
      have behind : terminator source = [] := by rw [terminator, shape]
      simp only [shape] at gathered
      cases read : octetRun blocks target index with
      | error reason => rw [read] at gathered; cases gathered
      | ok run =>
          rw [read] at gathered
          cases gathered
          have offered : units blocks source = (run ++ [0]).map fun byte => [byte] := by
            rw [units, shape, octetRun_eq read]
          rw [image_of_bytes offered, behind, List.append_nil]
  | number payload =>
      have offered : units blocks source = payload.content.numeratorWords.map Word.toBytes := by
        rw [units, shape]
        exact wordUnits_eq payload.content
      have behind : terminator source = [] := by rw [terminator, shape]
      simp only [shape] at gathered
      cases gathered
      rw [image_of_units offered, behind, List.append_nil]
      rfl
  | matrix bounds slots =>
      have offered : units blocks source = (slots.map (octetOf blocks)).map fun byte => [byte] := by
        rw [units, shape, List.map_map]
        apply List.map_congr_left
        exact fun slot _ => congrArg (fun byte => [byte]) (octetOf_eq_elementByte blocks slot).symm
      have behind : terminator source = [] := by rw [terminator, shape]
      simp only [shape] at gathered
      cases gathered
      rw [image_of_bytes offered, behind, List.append_nil]
      simp only [select, List.length_map, List.map_take, List.map_drop]
  | _ =>
      simp only [shape] at gathered
      cases held : blockOf blocks source with
      | error reason => rw [held] at gathered; cases gathered
      | ok block =>
          rw [held] at gathered
          cases gathered
          obtain ⟨offered, behind⟩ := blockOf_data held
          rw [image_of_bytes offered, behind, List.append_nil, selectBytes_eq]

theorem units_of_file (blocks : NamedBlocks) {source : Value} (file : source.kind = .file) :
    units blocks source = [] := by
  rw [Value.kind] at file
  unfold units
  cases shape : source.data <;> rw [shape] at file <;> cases file

/-- A copy into a block writes the units that it takes, as they were before, and changes nothing but
the block. -/
theorem copy_writes_units {source destination result : Value} {start count position : Int}
    {exclusive : Bool} {machine after : Machine} {old : Block}
    (held : blockOf machine.blocks destination = .ok old) (sound : old.Sound)
    (copied : copy source start count destination position exclusive machine = (.ok result, after))
    (selected : 0 < unitCount machine.blocks source start.toNat count) :
    ∃ new, (result, after) = replaced machine destination new
      ∧ blockOf after.blocks result = .ok new ∧ new.Sound
      ∧ old.Receives (if position < 0 then old.length else position.toNat)
        (image machine.blocks source start.toNat count) new := by
  have other : source.kind ≠ .file := by
    intro file
    have bound := clamp_le 0 start.toNat count
    rw [unitCount_eq, units_of_file machine.blocks file, List.length_nil] at selected
    omega
  rw [copy_run] at copied
  cases admitted : permit machine.blocks source start destination with
  | error reason => rw [admitted] at copied; cases copied
  | ok _ =>
      rw [admitted] at copied
      simp only [route_into_block (blockOf_isBlock held) other] at copied
      cases gathered : bytesForBlock machine.blocks source start.toNat count with
      | error reason => rw [gathered] at copied; cases copied
      | ok bytes =>
          have same := bytesForBlock_eq gathered selected
          have written : ¬ bytes.isEmpty = true := by
            rw [same]
            simpa using image_nonempty selected
          rw [gathered] at copied
          simp only [if_neg written, intoBlock, changeBlock_run held] at copied
          cases stored : old.store (mayGrow machine.blocks destination) bytes position with
          | error reason => rw [stored] at copied; cases copied
          | ok new =>
              rw [stored] at copied
              cases copied
              obtain ⟨whole, receives⟩ := sound.store stored
              rw [same] at receives
              exact ⟨new, rfl, blockOf_replaced held new, whole, receives⟩

def oneBlock : Machine :=
  { Machine.new {} (Host.initial none none) with
    blocks := NamedBlocks.empty.add "n" (Block.ofBytes [1, 2, 3] 2) }

def mixedElements : Value :=
  .plain (.matrix [(0, 4)] [.ofNumber ⟨-515, 2⟩, .ofText [0x41, 0x42],
    .plain (.octet (.namedBlock ⟨0⟩) 2), .ofNamedBlock ⟨0⟩, .null])

/-- The block is copied behind its second byte, over its own third byte; and elements that point into the
block are copied behind its first byte as it was. -/
theorem copies_over_block :
    (∃ new, blockOf
          (copy (.ofNamedBlock ⟨0⟩) 0 (-1) (.ofNamedBlock ⟨0⟩) 2 false oneBlock).2.blocks
          (.ofNamedBlock ⟨0⟩) = .ok new
        ∧ new.data = [1, 2, 1, 2, 3] ∧ new.length = 5 ∧ new.chunk = 2 ∧ new.capacity = 6)
      ∧ ∃ new, blockOf (copy mixedElements 0 (-1) (.ofNamedBlock ⟨0⟩) 1 false oneBlock).2.blocks
          (.ofNamedBlock ⟨0⟩) = .ok new
        ∧ new.data = [1, 1, 0x41, 3, 1, 0] := by
  have copied : copy (.ofNamedBlock ⟨0⟩) 0 (-1) (.ofNamedBlock ⟨0⟩) 2 false oneBlock
      = (.ok (.ofNamedBlock ⟨0⟩),
        (copy (.ofNamedBlock ⟨0⟩) 0 (-1) (.ofNamedBlock ⟨0⟩) 2 false oneBlock).2) := rfl
  have gathered : copy mixedElements 0 (-1) (.ofNamedBlock ⟨0⟩) 1 false oneBlock
      = (.ok (.ofNamedBlock ⟨0⟩), (copy mixedElements 0 (-1) (.ofNamedBlock ⟨0⟩) 1 false oneBlock).2) := rfl
  obtain ⟨new, _, held, _, receives⟩ :=
    copy_writes_units rfl (Block.ofBytes_sound [1, 2, 3] 2) copied (by decide)
  obtain ⟨filled, _, stands, _, takes⟩ :=
    copy_writes_units rfl (Block.ofBytes_sound [1, 2, 3] 2) gathered (by decide)
  obtain ⟨⟨chunks, whole⟩, room, least⟩ := receives.grown (by decide)
  have enough : 5 ≤ new.capacity := room
  have even : new.capacity = 2 * chunks := whole
  have fewest : new.capacity ≤ 6 := least 6 (by decide) (by decide)
  refine ⟨⟨new, held, receives.data.trans (by decide), receives.length.trans (by decide),
    receives.chunk.trans (by decide), ?_⟩, filled, stands, takes.data.trans (by decide)⟩
  omega

end Calculator.Copy
