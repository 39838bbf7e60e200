import Calculator.Proofs.BlockRun
import Calculator.Proofs.CopyOutcome

/-!
# Copies into blocks that grow

Where neither a destination nor its block is protected against growth, a copy into the block succeeds,
and what the block shows afterwards depends on nothing but what it showed before, the place and the
bytes. Bytes that are stored behind one another are stored as if at once, the capacity included.
-/

namespace Calculator

theorem Bytes.overwrite_padTo (bytes : Bytes) (start : Nat) {written : Bytes} (nonempty : written ≠ []) :
    (bytes.padTo (start + written.length)).overwrite start written = bytes.patch start written := by
  have front : (bytes.padTo (start + written.length)).take start = (bytes.padTo start).take start := by
    rw [padTo, padTo, List.take_append, List.take_append, zeros, zeros, List.take_replicate,
      List.take_replicate]
    congr 2
    omega
  have behind : (bytes.padTo (start + written.length)).drop (start + written.length)
      = bytes.drop (start + written.length) := by
    rw [padTo, List.drop_append, zeros, List.drop_replicate, Nat.sub_self]
    exact List.append_nil _
  rw [patch_parts bytes start nonempty, overwrite, front, behind]

namespace Block

theorem roomFor_mono {less more : Nat} (order : less ≤ more) {chunk : Nat} (positive : 0 < chunk) :
    roomFor less chunk ≤ roomFor more chunk :=
  roomFor_le positive (roomFor_whole more chunk) (Nat.le_trans order (le_roomFor more positive))

namespace View

/-- What a block shows once bytes are stored in it from a place on, where it may grow. -/
def stored (view : View) (start : Nat) (bytes : Bytes) : View :=
  if bytes.isEmpty then view
  else
    { data := view.data.patch start bytes
      capacity :=
        if start + bytes.length ≤ view.capacity then view.capacity
        else roomFor (start + bytes.length) view.chunk
      chunk := view.chunk }

variable (view : View) (start : Nat)

theorem stored_nil : view.stored start [] = view := rfl

theorem stored_of_ne_nil {bytes : Bytes} (nonempty : bytes ≠ []) :
    view.stored start bytes
      = { data := view.data.patch start bytes
          capacity :=
            if start + bytes.length ≤ view.capacity then view.capacity
            else roomFor (start + bytes.length) view.chunk
          chunk := view.chunk } :=
  if_neg (by simpa using nonempty)

theorem stored_data (bytes : Bytes) : (view.stored start bytes).data = view.data.patch start bytes := by
  unfold stored
  split
  · rename_i nothing
    rw [List.isEmpty_iff.mp nothing, Bytes.patch_nil]
  · rfl

theorem stored_append (positive : 0 < view.chunk) (first second : Bytes) :
    (view.stored start first).stored (start + first.length) second
      = view.stored start (first ++ second) := by
  by_cases noFirst : first = []
  · rw [noFirst, stored_nil]
    rfl
  by_cases noSecond : second = []
  · rw [noSecond, stored_nil, List.append_nil]
  have both : first ++ second ≠ [] := by simp [noFirst]
  rw [stored_of_ne_nil _ _ noFirst, stored_of_ne_nil _ _ noSecond, stored_of_ne_nil _ _ both]
  dsimp only
  rw [Bytes.patch_append, List.length_append, ← Nat.add_assoc]
  congr 1
  -- Growth in two steps ends where growth in one does: room for the whole is room for the first part.
  by_cases fits : start + first.length ≤ view.capacity
  · rw [if_pos fits]
  · rw [if_neg fits]
    have outgrown : ¬ start + first.length + second.length ≤ view.capacity := by omega
    have order := roomFor_mono (Nat.le_add_right (start + first.length) second.length) positive
    rw [if_neg outgrown]
    split
    · rename_i enough
      exact Nat.le_antisymm order (roomFor_le positive (roomFor_whole _ _) enough)
    · rfl

end View

theorem Sound.store_grows {block : Block} (sound : block.Sound) {bytes : Bytes} (nonempty : bytes ≠ [])
    (position : Int) :
    ∃ new, block.store true bytes position = .ok new ∧ new.Sound
      ∧ new.view = block.view.stored (if position < 0 then block.length else position.toNat) bytes := by
  obtain ⟨new, stored⟩ := (Copy.store_ok_iff block true bytes position).mpr (.inr rfl)
  obtain ⟨whole, shown⟩ := sound.performAll
    [.reserve ((if position < 0 then block.length else position.toNat) + bytes.length) true,
      .write (if position < 0 then block.length else position.toNat) bytes]
  rw [← sound.store_eq stored] at whole shown
  refine ⟨new, stored, whole, shown.trans ?_⟩
  rw [View.stored_of_ne_nil _ _ nonempty, ← Bytes.overwrite_padTo _ _ nonempty]
  generalize (if position < 0 then block.length else position.toNat) = start
  have room := le_roomFor (start + bytes.length) sound.chunked
  simp only [List.foldl, Call.change, Bool.and_true, decide_eq_true_eq]
  by_cases fits : start + bytes.length ≤ block.view.capacity
  · rw [if_neg (Nat.not_lt.mpr fits), if_pos fits, if_pos fits]
  · rw [if_pos (Nat.lt_of_not_le fits), if_neg fits]
    exact if_pos room

end Block

namespace NamedBlocks

variable {blocks : NamedBlocks} {id : BlockId}

theorem setStorage_setStorage (first second : Option Block) :
    (blocks.setStorage id first).setStorage id second = blocks.setStorage id second := by
  rw [setStorage, setStorage, List.modify_modify_eq]
  rfl

theorem Permits.setStorage {bit : Protection} (permits : blocks.Permits id bit) (other : BlockId)
    (block : Block) : (blocks.setStorage other (some block)).Permits id bit := by
  obtain ⟨named, listed, free, stored⟩ := permits
  by_cases same : id = other
  · rw [← same]
    refine ⟨{ named with block := some block }, ?_, free, rfl⟩
    rw [get?_setStorage_self, listed]
    rfl
  · refine ⟨named, ?_, free, stored⟩
    rw [get?_setStorage_ne _ same, listed]

end NamedBlocks

namespace Copy

variable {machine : Machine} {source destination : Value} {old : Block}

theorem replaced_replaced (machine : Machine) (destination : Value) (first second : Block) :
    replaced (replaced machine destination first).2 (replaced machine destination first).1 second
      = replaced machine destination second := by
  unfold replaced
  cases shape : destination.data with
  | namedBlock id =>
      simp only [shape]
      rw [NamedBlocks.setStorage_setStorage]
  | _ => rfl

/-- What decides whether a value may be copied, or copied into: the bytes of its block are no part of it. -/
structure SameRole (one other : Value) : Prop where
  protection : one.protection = other.protection
  kind : one.kind = other.kind
  source : sourceBlock? one = sourceBlock? other
  destination : destinationBlock? one = destinationBlock? other

theorem SameRole.refl (value : Value) : SameRole value value := ⟨rfl, rfl, rfl, rfl⟩

theorem replaced_role (held : blockOf machine.blocks destination = .ok old) (new : Block) :
    SameRole (replaced machine destination new).1 destination := by
  unfold replaced
  rcases blockOf_ok held with direct | ⟨id, named, names, _, _⟩
  · rw [direct]
    constructor <;> simp [Value.kind, Data.kind, sourceBlock?, destinationBlock?, direct]
  · rw [names]
    exact ⟨rfl, rfl, rfl, rfl⟩

theorem permits_replaced {id : BlockId} {bit : Protection} (permits : machine.blocks.Permits id bit)
    (destination : Value) (new : Block) :
    (replaced machine destination new).2.blocks.Permits id bit := by
  unfold replaced
  cases destination.data with
  | namedBlock other => exact permits.setStorage other new
  | _ => exact permits

theorem Unprotected.sameRole {blocks : NamedBlocks} {other into : Value}
    (free : Unprotected blocks source destination) (from_role : SameRole other source)
    (into_role : SameRole into destination) : Unprotected blocks other into where
  taken := by rw [from_role.protection, free.taken]
  given := by rw [into_role.protection, free.given]
  readable := by
    rw [from_role.source]
    exact free.readable
  writable := by
    rw [into_role.destination]
    exact free.writable

theorem Unprotected.replaced (free : Unprotected machine.blocks source destination) (changed : Value)
    (new : Block) : Unprotected (replaced machine changed new).2.blocks source destination where
  taken := free.taken
  given := free.given
  readable := fun id reads => permits_replaced (free.readable id reads) changed new
  writable := fun id writes => permits_replaced (free.writable id writes) changed new

theorem mayGrow_setStorage (blocks : NamedBlocks) (id : BlockId) (block : Option Block) (value : Value) :
    mayGrow (blocks.setStorage id block) value = mayGrow blocks value := by
  unfold mayGrow
  cases destinationBlock? value with
  | none => rfl
  | some other =>
      dsimp only
      by_cases same : other = id
      · rw [same, NamedBlocks.get?_setStorage_self, Option.all_map]
      · rw [NamedBlocks.get?_setStorage_ne _ same]

theorem mayGrow_replaced (machine : Machine) (destination : Value) (new : Block) (value : Value) :
    mayGrow (replaced machine destination new).2.blocks value = mayGrow machine.blocks value := by
  unfold replaced
  cases destination.data with
  | namedBlock id => exact mayGrow_setStorage machine.blocks id (some new) value
  | _ => rfl

theorem SameRole.mayGrow {one other : Value} (role : SameRole one other) (blocks : NamedBlocks) :
    mayGrow blocks one = mayGrow blocks other := by
  unfold Copy.mayGrow
  rw [role.protection, role.destination]

/-- A copy into a block that may grow succeeds, and stores what it takes. -/
theorem copy_grows (held : blockOf machine.blocks destination = .ok old) (sound : old.Sound)
    (grows : mayGrow machine.blocks destination = true)
    (free : Unprotected machine.blocks source destination)
    (routed : Kind.block ∈ reaches source.kind) {start : Int} (indexed : 0 ≤ start)
    (count position : Int) (exclusive : Bool) :
    ∃ bytes new, bytesForBlock machine.blocks source start.toNat count = .ok bytes
      ∧ copy source start count destination position exclusive machine
        = (.ok (replaced machine destination new).1, (replaced machine destination new).2)
      ∧ new.Sound
      ∧ new.view = old.view.stored (if position < 0 then old.length else position.toNat) bytes := by
  have block := blockOf_isBlock held
  have other : source.kind ≠ .file := by
    intro file
    rw [file] at routed
    cases routed
  have route : Routed source.kind destination.kind := by
    revert routed block
    unfold Routed
    cases source.kind <;> cases destination.kind <;> decide
  obtain ⟨bytes, gathered, _⟩ := bytesForBlock_gathers free routed block start.toNat count
  rw [copy_run, permit_ok_iff.mpr ⟨free, route, indexed⟩]
  dsimp only
  rw [route_into_block block other, gathered]
  dsimp only
  by_cases empty : bytes = []
  · refine ⟨bytes, old, rfl, ?_, sound, ?_⟩
    · rw [if_pos (by simpa using empty), replaced_self held]
    · rw [empty, Block.View.stored_nil]
  · obtain ⟨new, stored, whole, shown⟩ := sound.store_grows empty position
    refine ⟨bytes, new, rfl, ?_, whole, shown⟩
    rw [if_neg (by simpa using empty), intoBlock, changeBlock_run held, grows, stored]

end Copy

end Calculator
