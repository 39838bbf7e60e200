import Calculator.Proofs.GrowingBlocks

/-!
# Copies in pieces

A copy into a block that may grow may be made in two pieces, each behind the other. The block shows the
same bytes, length, capacity and chunk afterwards, also where a piece lies past the end of the source.
It must not be read by the source, which would see the first piece there. A text is left out, as it
brings a NUL behind each piece.
-/

namespace Calculator

namespace Copy

variable {machine : Machine} {blocks : NamedBlocks} {source destination : Value} {old : Block}

theorem clamp_natCast (length start count : Nat) :
    clamp length start count = min (length - start) count := by
  rw [clamp, if_neg (Int.not_lt.mpr (Int.natCast_nonneg count)), Int.toNat_natCast]

theorem select_natCast {α : Type} (units : List α) (start count : Nat) :
    select units start count = (units.drop start).take count := by
  rw [select, clamp_natCast, List.take_eq_take_iff, List.length_drop]
  omega

theorem select_add {α : Type} (units : List α) (start first second : Nat) :
    select units start (first + second : Nat)
      = select units start first ++ select units (start + first) second := by
  rw [select_natCast, select_natCast, select_natCast, List.take_add, List.drop_drop]

def divisible (kind : Kind) : Bool :=
  isBlock kind || kind == .number || kind == .matrix || kind == .octet

/-- The source reads from the named block, directly or through an element. -/
def Reads (source : Value) (id : BlockId) : Prop :=
  sourceBlock? source = some id
    ∨ ∃ bounds slots slot, source.data = .matrix bounds slots ∧ slot ∈ slots
      ∧ sourceBlock? slot = some id

theorem units_congr {other : NamedBlocks}
    (same : ∀ id, Reads source id → other.storage? id = blocks.storage? id) :
    units other source = units blocks source := by
  unfold units
  cases shape : source.data with
  | namedBlock id =>
      have read := same id (.inl (by rw [sourceBlock?, shape]))
      simp only [read]
  | octet target index =>
      cases target with
      | text payload => rfl
      | namedBlock id =>
          have read := same id (.inl (by rw [sourceBlock?, shape]))
          simp only [octetBytes, read]
  | matrix bounds slots =>
      apply List.map_congr_left
      intro slot member
      have read (id : BlockId) (named : sourceBlock? slot = some id) :
          other.storage? id = blocks.storage? id :=
        same id (.inr ⟨bounds, slots, slot, shape, member, named⟩)
      congr 1
      unfold elementByte
      cases held : slot.data with
      | namedBlock id =>
          have stored := read id (by rw [sourceBlock?, held])
          simp only [stored]
      | octet target index =>
          cases target with
          | text payload => rfl
          | namedBlock id =>
              have stored := read id (by rw [sourceBlock?, held])
              simp only [octetBytes, stored]
      | _ => rfl
  | _ => rfl

theorem units_length (routed : Kind.block ∈ reaches source.kind) {kind : Kind}
    (block : isBlock kind = true) : (units blocks source).length = offered blocks source kind := by
  unfold units offered
  rw [Value.kind] at routed
  cases shape : source.data with
  | block held => rw [List.length_map, held.data_length]
  | namedBlock id =>
      dsimp only
      rw [List.length_map]
      cases blocks.storage? id with
      | none => rfl
      | some held => exact held.data_length
  | octet target index =>
      simp only [block, List.length_map, List.length_append, List.length_singleton, if_true]
  | number payload =>
      exact (congrArg List.length (wordUnits_eq payload.content)).trans (List.length_map _)
  | text payload => exact List.length_map _
  | matrix bounds slots => exact List.length_map _
  | _ => simp [shape, reaches, Data.kind] at routed

theorem divisible_routed (alone : divisible source.kind = true) :
    Kind.block ∈ reaches source.kind := by
  revert alone
  cases source.kind <;> decide

theorem terminator_of_divisible (alone : divisible source.kind = true) : terminator source = [] := by
  rw [Value.kind] at alone
  unfold terminator
  cases shape : source.data with
  | text payload => simp [shape, Data.kind, divisible, isBlock] at alone
  | _ => rfl

theorem bytesForBlock_units (free : Unprotected blocks source destination)
    (alone : divisible source.kind = true) (start : Nat) (count : Int) :
    bytesForBlock blocks source start count
      = .ok (select (units blocks source) start count).flatten := by
  have routed := divisible_routed alone
  obtain ⟨bytes, gathered, nothing, _⟩ :=
    bytesForBlock_gathers free routed (rfl : isBlock .block = true) start count
  rw [← units_length routed rfl, ← select_length] at nothing
  rw [gathered]
  congr 1
  by_cases none : select (units blocks source) start count = []
  · rw [nothing.mpr (by rw [none]; rfl), none]
    rfl
  · have selected : 0 < unitCount blocks source start count := by
      rw [unitCount_eq, ← select_length]
      exact List.length_pos_iff.mpr none
    rw [bytesForBlock_eq gathered selected, image, terminator_of_divisible alone, List.append_nil]
    rfl

def continued (source : Value) (count : Nat) (position : Int) : Int :=
  if position < 0 then position else position + extent source count

theorem extent_nothing (alone : divisible source.kind = true) : extent source 0 = 0 := by
  rw [Value.kind] at alone
  unfold extent
  cases shape : source.data with
  | text payload => simp [shape, Data.kind, divisible, isBlock] at alone
  | _ => rfl

/-- A second piece is empty, or it stands right behind the first. -/
theorem pieces_adjoin (free : Unprotected blocks source destination)
    (alone : divisible source.kind = true) (start first second : Nat) {bytes : Bytes}
    (taken : bytes = (select (units blocks source) start first).flatten) :
    select (units blocks source) (start + first) second = []
      ∨ bytes.length = extent source first := by
  have routed := divisible_routed alone
  obtain ⟨gathered, brought, nothing, sized⟩ :=
    bytesForBlock_gathers free routed (rfl : isBlock .block = true) start first
  rw [bytesForBlock_units free alone, ← taken] at brought
  cases brought
  rw [← units_length routed rfl] at nothing sized
  by_cases inside : start + first ≤ (units blocks source).length
  · have all : clamp (units blocks source).length start first = first := by
      rw [clamp_natCast]
      omega
    rw [all] at nothing sized
    right
    by_cases none : first = 0
    · rw [nothing.mpr none, none, extent_nothing alone]
      rfl
    · exact sized none
  · left
    rw [← List.length_eq_zero_iff, select_length]
    have bound := clamp_le (units blocks source).length (start + first) second
    omega

theorem units_replaced (apart : ∀ id ∈ destinationBlock? destination, ¬ Reads source id) (new : Block) :
    units (replaced machine destination new).2.blocks source = units machine.blocks source := by
  apply units_congr
  intro id reads
  unfold replaced
  cases shape : destination.data with
  | namedBlock written =>
      have differs : id ≠ written := by
        rintro rfl
        exact apart id (by rw [destinationBlock?, shape]; rfl) reads
      rw [NamedBlocks.storage?, NamedBlocks.get?_setStorage_ne _ differs, NamedBlocks.storage?]
  | _ => rfl

/-- The second piece goes where the first ended. -/
theorem place_continued {head : Block} {position : Int} {front : Bytes} {count : Nat}
    (shown : head.view
      = old.view.stored (if position < 0 then old.length else position.toNat) front)
    (sized : front.length = extent source count) :
    (if continued source count position < 0 then head.length
        else (continued source count position).toNat)
      = (if position < 0 then old.length else position.toNat) + front.length := by
  unfold continued
  by_cases appends : position < 0
  · have data := congrArg Block.View.data shown
    rw [if_pos appends, Block.View.stored_data, Block.view_data, Block.view_data, ← old.data_length,
      Bytes.patch_end] at data
    rw [if_pos appends, if_pos appends, if_pos appends, ← head.data_length, data, List.length_append,
      old.data_length]
  · have forward : ¬ position + extent source count < 0 := by omega
    rw [if_neg appends, if_neg appends, if_neg forward]
    omega

/-- Into a block that may grow, a copy at once and a copy in two pieces, the second behind the first,
lead to the same. -/
theorem copy_in_pieces (held : blockOf machine.blocks destination = .ok old) (sound : old.Sound)
    (grows : mayGrow machine.blocks destination = true)
    (free : Unprotected machine.blocks source destination)
    (alone : divisible source.kind = true)
    (apart : ∀ id ∈ destinationBlock? destination, ¬ Reads source id) (start first second : Nat)
    (position : Int) (exclusive : Bool) :
    ∃ (whole pieces : Block) (middle : Value) (between : Machine),
      copy source start (first + second : Nat) destination position exclusive machine
        = (.ok (replaced machine destination whole).1, (replaced machine destination whole).2)
      ∧ copy source start first destination position exclusive machine = (.ok middle, between)
      ∧ copy source (start + first : Nat) second middle (continued source first position) exclusive
          between
        = (.ok (replaced machine destination pieces).1, (replaced machine destination pieces).2)
      ∧ pieces.view = whole.view ∧ pieces.length = whole.length := by
  have routed := divisible_routed alone
  obtain ⟨all, whole, gathered, copied, _, shown⟩ := copy_grows held sound grows free routed
    (Int.natCast_nonneg start) (first + second : Nat) position exclusive
  obtain ⟨front, head, taken, began, stands, front_shown⟩ := copy_grows held sound grows free routed
    (Int.natCast_nonneg start) first position exclusive
  have role := replaced_role held head
  have again := (free.replaced destination head).sameRole (.refl source) role
  have still : mayGrow (replaced machine destination head).2.blocks
      (replaced machine destination head).1 = true := by
    rw [role.mayGrow, mayGrow_replaced, grows]
  obtain ⟨back, pieces, left, ended, _, back_shown⟩ := copy_grows (blockOf_replaced held head) stands
    still again routed (Int.natCast_nonneg (start + first)) second
    (continued source first position) exclusive
  rw [replaced_replaced] at ended
  rw [Int.toNat_natCast, bytesForBlock_units free alone] at gathered taken
  rw [Int.toNat_natCast, bytesForBlock_units again alone, units_replaced apart] at left
  cases gathered
  cases taken
  cases left
  have same : pieces.view = whole.view := by
    rw [shown, back_shown, select_add, List.flatten_append]
    rcases pieces_adjoin free alone start first second rfl with nothing | sized
    · rw [nothing, List.flatten_nil, List.append_nil, Block.View.stored_nil, front_shown]
    · rw [place_continued front_shown sized, front_shown, Block.View.stored_append _ _ sound.chunked]
  refine ⟨whole, pieces, _, _, copied, began, ended, same, ?_⟩
  have data := congrArg Block.View.data same
  rw [Block.view_data, Block.view_data] at data
  rw [← pieces.data_length, data, whole.data_length]

end Copy

namespace PiecesSample

open Copy

def source : Value := .ofInt 0x500000007

def destination : Value := .ofNamedBlock ⟨0⟩

/-- The words go over the last bytes of a block of three, the second in a piece that reaches past the
end of the source. -/
theorem words_go_in_pieces :
    ∃ (whole pieces : Block) (middle : Value) (between : Machine),
      copy source 0 5 destination 1 false oneBlock
        = (.ok (replaced oneBlock destination whole).1, (replaced oneBlock destination whole).2)
      ∧ copy source 0 1 destination 1 false oneBlock = (.ok middle, between)
      ∧ copy source 1 4 middle 5 false between
        = (.ok (replaced oneBlock destination pieces).1, (replaced oneBlock destination pieces).2)
      ∧ whole.view = ⟨[1, 7, 0, 0, 0, 5, 0, 0, 0], 10, 2⟩ ∧ pieces.view = whole.view := by
  have held : blockOf oneBlock.blocks destination = .ok (Block.ofBytes [1, 2, 3] 2) := rfl
  have free : Unprotected oneBlock.blocks source destination := by
    refine ⟨by decide, by decide, nofun, ?_⟩
    rintro _ ⟨⟩
    exact ⟨_, rfl, rfl, rfl⟩
  have apart : ∀ id ∈ destinationBlock? destination, ¬ Reads source id := by
    rintro _ _ (direct | ⟨_, _, _, shape, _⟩)
    · cases direct
    · cases shape
  obtain ⟨whole, pieces, middle, between, copied, began, ended, same, _⟩ :=
    copy_in_pieces held (Block.ofBytes_sound [1, 2, 3] 2) rfl free rfl apart 0 1 4 1 false
  refine ⟨whole, pieces, middle, between, copied, began, ended, ?_, same⟩
  have shown := blockOf_replaced held whole
  have ran : (copy source 0 5 destination 1 false oneBlock).2
      = (replaced oneBlock destination whole).2 :=
    congrArg Prod.snd copied
  rw [← ran] at shown
  have view :
      (blockOf (copy source 0 5 destination 1 false oneBlock).2.blocks destination).map Block.view
        = .ok ⟨[1, 7, 0, 0, 0, 5, 0, 0, 0], 10, 2⟩ := rfl
  have named : (replaced oneBlock destination whole).1 = destination := rfl
  rw [named] at shown
  rw [shown] at view
  exact Except.ok.inj view

end PiecesSample

end Calculator
