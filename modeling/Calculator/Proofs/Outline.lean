import Calculator.Proofs.Block
import Calculator.Proofs.Gateway

/-!
# Blocks up to their bytes

The outline of a block is all of it but its bytes. Storing as many bytes in two blocks of one outline
ends in the same way, with one outline. Registries and machines may differ in nothing but the bytes of
one named block, and go on so when blocks of one outline are put in its place.
-/

namespace Calculator

namespace Block

def outline (block : Block) : Nat × Nat × Nat :=
  (block.length, block.capacity, block.chunk)

theorem put_capacity (block : Block) (start : Nat) {bytes : Bytes} (nonempty : bytes ≠ []) :
    (block.put start bytes).capacity = max block.capacity (start + bytes.length) := by
  rw [capacity_eq, put, Content.toBytes_write_eq_patch, Bytes.patch_length _ _ nonempty, capacity_eq]

theorem put_outline {left right : Block} (same : left.outline = right.outline) (start : Nat)
    {first second : Bytes} (length : first.length = second.length) :
    (left.put start first).outline = (right.put start second).outline := by
  by_cases empty : first = []
  · subst empty
    rw [List.eq_nil_of_length_eq_zero length.symm]
    simp only [outline, Prod.mk.injEq] at same ⊢
    refine ⟨?_, same.2.1, same.2.2⟩
    rw [put, put, same.1]
  · have written : second ≠ [] := by
      rintro rfl
      exact empty (List.eq_nil_of_length_eq_zero length)
    simp only [outline, Prod.mk.injEq] at same ⊢
    rw [put_capacity left start empty, put_capacity right start written, same.2.1, length]
    refine ⟨?_, rfl, same.2.2⟩
    rw [put, put, same.1, length]

theorem grownFor_outline {left right : Block} (same : left.outline = right.outline) (needed : Nat) :
    (left.grownFor needed).outline = (right.grownFor needed).outline := by
  simp only [outline, Prod.mk.injEq, grownFor_capacity] at same ⊢
  obtain ⟨length, _, chunk⟩ := same
  refine ⟨length, ?_, chunk⟩
  rw [chunk]

/-- How a store ends depends on nothing but the outline of the block and the number of bytes. -/
theorem store_outline {left right : Block} (same : left.outline = right.outline) (canGrow : Bool)
    {first second : Bytes} (length : first.length = second.length) (position : Int) :
    (left.store canGrow first position).map outline
      = (right.store canGrow second position).map outline := by
  have parts := same
  simp only [outline, Prod.mk.injEq] at parts
  rw [store, store, ← parts.1, ← length]
  generalize (if position < 0 then left.length else position.toNat) = start
  by_cases fits : start + first.length ≤ left.capacity
  · have fitted := parts.2.1 ▸ fits
    simp only [reserve, if_pos fits, if_pos fitted]
    exact congrArg Except.ok (put_outline same start length)
  · have exceeds := parts.2.1 ▸ fits
    cases canGrow with
    | false => simp only [reserve, if_neg fits, if_neg exceeds]; rfl
    | true =>
        simp only [reserve, if_neg fits, if_neg exceeds, if_true]
        exact congrArg Except.ok (put_outline (grownFor_outline same _) start length)

theorem put_slice (block : Block) (start : Nat) (bytes : Bytes) :
    (block.put start bytes).slice start bytes.length = bytes := by
  by_cases empty : bytes = []
  · subst empty
    rw [slice_eq]
    rfl
  have reach : start + bytes.length ≤ (block.put start bytes).length := Nat.le_max_right _ _
  have front := Bytes.take_padTo_length block.storage.toBytes start
  have stored : (block.put start bytes).storage.toBytes
      = (block.storage.toBytes.padTo start).take start ++ bytes
        ++ block.storage.toBytes.drop (start + bytes.length) := by
    rw [put, Content.toBytes_write_eq_patch, Bytes.patch_parts _ _ empty]
  generalize (block.storage.toBytes.padTo start).take start = before at front stored
  have shown : (before ++ bytes).length ≤ (block.put start bytes).length := by
    rw [List.length_append, front]
    exact reach
  rw [slice_eq, data, content, Content.toBytes_resize, stored, List.take_append,
    List.take_of_length_le shown, List.append_assoc, List.append_assoc, List.drop_left' front,
    List.take_left]

theorem store_slice {block new : Block} {canGrow : Bool} {bytes : Bytes} {position : Int}
    (stored : block.store canGrow bytes position = .ok new) :
    new.slice (if position < 0 then block.length else position.toNat) bytes.length = bytes := by
  rw [store] at stored
  generalize (if position < 0 then block.length else position.toNat) = start at stored ⊢
  cases room : block.reserve (start + bytes.length) canGrow with
  | fits =>
      simp only [room] at stored
      cases stored
      exact put_slice block start bytes
  | grown larger =>
      simp only [room] at stored
      cases stored
      exact put_slice larger start bytes
  | denied =>
      simp only [room] at stored
      cases stored

end Block

def NamedBlock.outline (named : NamedBlock) :
    String × BlockId × Protection × Option (Nat × Nat × Nat) :=
  (named.name, named.id, named.protection, named.block.map Block.outline)

namespace NamedBlocks

/-- Registries that differ in nothing but the bytes of one block. -/
structure SameBut (id : BlockId) (left right : NamedBlocks) : Prop where
  byName : left.byName = right.byName
  others : ∀ place, place ≠ id.place → left.blocks[place]? = right.blocks[place]?
  outline : (left.get? id).map NamedBlock.outline = (right.get? id).map NamedBlock.outline

namespace SameBut

variable {id : BlockId} {left right : NamedBlocks} (same : left.SameBut id right)

include same

theorem get?_eq {other : BlockId} (apart : other ≠ id) : left.get? other = right.get? other :=
  same.others other.place fun own => apart (BlockId.place_inj.mp own)

/-- A block is listed in both registries or in none. -/
theorem lookup (other : BlockId) :
    (left.get? other = none ∧ right.get? other = none)
      ∨ ∃ first second, left.get? other = some first ∧ right.get? other = some second
        ∧ first.name = second.name ∧ first.protection = second.protection
        ∧ first.block.map Block.outline = second.block.map Block.outline := by
  have outlines : (left.get? other).map NamedBlock.outline
      = (right.get? other).map NamedBlock.outline := by
    by_cases own : other = id
    · rw [own]
      exact same.outline
    · rw [same.get?_eq own]
  cases first : left.get? other with
  | none =>
      rw [first, Option.map_none] at outlines
      exact .inl ⟨rfl, Option.map_eq_none_iff.mp outlines.symm⟩
  | some named =>
      rw [first, Option.map_some] at outlines
      obtain ⟨second, listed, outline⟩ := Option.map_eq_some_iff.mp outlines.symm
      simp only [NamedBlock.outline, Prod.mk.injEq] at outline
      obtain ⟨names, _, bits, sizes⟩ := outline
      exact .inr ⟨named, second, rfl, listed, names.symm, bits.symm, sizes.symm⟩

theorem storage_eq {other : BlockId} (apart : other ≠ id) :
    left.storage? other = right.storage? other := by
  rw [storage?, storage?, same.get?_eq apart]

theorem setStorage {other : BlockId} {first second : Option Block}
    (outline : first.map Block.outline = second.map Block.outline)
    (equal : other ≠ id → first = second) :
    (left.setStorage other first).SameBut id (right.setStorage other second) := by
  constructor
  case byName => exact same.byName
  case others =>
    intro place apart
    rw [NamedBlocks.setStorage, NamedBlocks.setStorage, List.getElem?_modify, List.getElem?_modify,
      same.others place apart]
    by_cases target : other.place = place
    · have distinct : other ≠ id := fun own => apart (own ▸ target.symm)
      rw [equal distinct]
    · simp only [if_neg target]
  case outline =>
    by_cases own : id = other
    · subst own
      rw [get?_setStorage_self, get?_setStorage_self, Option.map_map, Option.map_map]
      have outlines := same.outline
      cases old : left.get? id with
      | none =>
          rw [old, Option.map_none] at outlines
          rw [Option.map_eq_none_iff.mp outlines.symm]
          rfl
      | some named =>
          rw [old, Option.map_some] at outlines
          obtain ⟨twin, present, sizes⟩ := Option.map_eq_some_iff.mp outlines.symm
          simp only [NamedBlock.outline, Prod.mk.injEq] at sizes
          obtain ⟨names, ids, bits, _⟩ := sizes
          simp only [present, Option.map_some, Function.comp_apply, NamedBlock.outline, names, ids,
            bits, outline]
    · rw [get?_setStorage_ne left own, get?_setStorage_ne right own]
      exact same.outline

end SameBut

end NamedBlocks

/-- Machines that differ in nothing but the bytes of one named block. -/
structure Machine.SameBut (id : BlockId) (left right : Machine) : Prop where
  blocks : left.blocks.SameBut id right.blocks
  rest : right = { left with blocks := right.blocks }

end Calculator
