import Calculator.Proofs.CopyForms
import Calculator.Proofs.Patch

/-!
# Sound blocks

A sound block has a chunk, its capacity is a number of whole chunks that holds the data, and all that
lies behind the data is zero. Storing bytes in a sound block is a write on its data with the gap before
it zeroed, and the block grows by no more than whole chunks must.
-/

namespace Calculator

namespace Bytes

theorem take_padTo (bytes : Bytes) {count length : Nat} (enough : count ≤ length) :
    (bytes.padTo length).take (max bytes.length count) = bytes.padTo count := by
  rw [padTo, padTo, List.take_append, List.take_of_length_le (Nat.le_max_left _ _)]
  congr 1
  rw [zeros, zeros, List.take_replicate]
  congr 1
  omega

theorem drop_padTo (bytes : Bytes) (length : Nat) {count : Nat} (enough : bytes.length ≤ count) :
    (bytes.padTo length).drop count = zeros (length - count) := by
  rw [padTo, List.drop_append, List.drop_eq_nil_of_le enough, List.nil_append, zeros, zeros,
    List.drop_replicate]
  congr 1
  omega

theorem take_overwrite (bytes : Bytes) {start count : Nat} {patch : Bytes}
    (inside : start ≤ bytes.length) (enough : start + patch.length ≤ count) :
    (bytes.overwrite start patch).take count = overwrite (bytes.take count) start patch := by
  have front : (bytes.take start ++ patch).length = start + patch.length := by
    rw [List.length_append, List.length_take, Nat.min_eq_left inside]
  rw [overwrite, overwrite, List.take_append, front, List.take_of_length_le (by omega),
    List.take_take, Nat.min_eq_left (by omega), List.drop_take]

theorem drop_overwrite (bytes : Bytes) {start count : Nat} {patch : Bytes}
    (inside : start ≤ bytes.length) (enough : start + patch.length ≤ count) :
    (bytes.overwrite start patch).drop count = bytes.drop count := by
  have front : (bytes.take start ++ patch).length = start + patch.length := by
    rw [List.length_append, List.length_take, Nat.min_eq_left inside]
  rw [overwrite, List.drop_append, front, List.drop_eq_nil_of_le (by omega), List.nil_append,
    List.drop_drop, Nat.add_sub_cancel' enough]

end Bytes

namespace Block

variable {block : Block}

structure Sound (block : Block) : Prop where
  chunked : 0 < block.chunk
  inside : block.length ≤ block.capacity
  whole : block.chunk ∣ block.capacity
  zeroed : block.storage.toBytes.drop block.length = Bytes.zeros (block.capacity - block.length)

theorem capacity_eq (block : Block) : block.capacity = block.storage.toBytes.length :=
  Content.size_eq block.storage

theorem data_length (block : Block) : block.data.length = block.length := by
  rw [data, content, Content.toBytes_resize, List.length_append, List.length_take,
    Bytes.zeros_length]
  omega

theorem Sound.data_eq (sound : block.Sound) : block.data = block.storage.toBytes.take block.length := by
  have inside := sound.inside
  rw [capacity_eq] at inside
  rw [data, content, Content.toBytes_resize, Nat.sub_eq_zero_of_le inside]
  exact List.append_nil _

theorem Sound.storage_eq (sound : block.Sound) :
    block.storage.toBytes = block.data.padTo block.capacity := by
  rw [Bytes.padTo, block.data_length, ← sound.zeroed, sound.data_eq, List.take_append_drop]

theorem roomFor_whole (length chunk : Nat) : chunk ∣ roomFor length chunk :=
  Nat.dvd_mul_left chunk _

theorem le_roomFor (length : Nat) {chunk : Nat} (positive : 0 < chunk) :
    length ≤ roomFor length chunk := by
  have quotient := Nat.div_add_mod (length + (chunk - 1)) chunk
  have remainder := Nat.mod_lt (length + (chunk - 1)) positive
  rw [roomFor, Nat.mul_comm]
  omega

theorem roomFor_le {length chunk room : Nat} (positive : 0 < chunk) (whole : chunk ∣ room)
    (enough : length ≤ room) : roomFor length chunk ≤ room := by
  obtain ⟨chunks, rfl⟩ := whole
  rw [roomFor, Nat.mul_comm chunk chunks]
  apply Nat.mul_le_mul_right
  apply Nat.le_of_lt_succ
  rw [Nat.div_lt_iff_lt_mul positive, Nat.succ_mul, Nat.mul_comm chunks chunk]
  omega

section Put

variable {start : Nat} {bytes : Bytes} (sound : block.Sound)
  (fits : start + bytes.length ≤ block.capacity)

include sound fits

theorem Sound.put_storage :
    (block.put start bytes).storage.toBytes
      = (block.data.padTo block.capacity).overwrite start bytes := by
  rw [put, Content.toBytes_write _ _ _ (by rw [← capacity_eq]; omega), sound.storage_eq]

theorem Sound.put_capacity : (block.put start bytes).capacity = block.capacity := by
  rw [capacity_eq, sound.put_storage fits, ← sound.storage_eq,
    Bytes.overwrite_length (by rwa [← capacity_eq]), ← capacity_eq]

theorem Sound.put : (block.put start bytes).Sound where
  chunked := sound.chunked
  inside := by
    rw [sound.put_capacity fits]
    exact Nat.max_le.mpr ⟨sound.inside, fits⟩
  whole := by
    rw [sound.put_capacity fits]
    exact sound.whole
  zeroed := by
    have inside : start ≤ (block.data.padTo block.capacity).length := by
      rw [← sound.storage_eq, ← capacity_eq]
      omega
    have length := block.data_length
    rw [sound.put_capacity fits, sound.put_storage fits, Bytes.drop_overwrite _ inside,
      Bytes.drop_padTo]
    · rw [length]
      exact Nat.le_max_left _ _
    · exact Nat.le_max_right _ _

theorem Sound.put_data :
    (block.put start bytes).data
      = (block.data.padTo (start + bytes.length)).overwrite start bytes := by
  have inside : start ≤ (block.data.padTo block.capacity).length := by
    rw [← sound.storage_eq, ← capacity_eq]
    omega
  have shown : (block.put start bytes).length = max block.data.length (start + bytes.length) := by
    rw [block.data_length]
    rfl
  rw [(sound.put fits).data_eq, sound.put_storage fits, shown,
    Bytes.take_overwrite _ inside (Nat.le_max_right _ _), Bytes.take_padTo _ fits]

end Put

theorem chunkOrDefault_pos (chunk : Nat) : 0 < chunkOrDefault chunk := by
  rw [chunkOrDefault]
  split
  · decide
  · exact Nat.pos_of_ne_zero ‹_›

theorem le_roomAbove (length : Nat) {chunk : Nat} (positive : 0 < chunk) :
    length ≤ roomAbove length chunk := by
  have quotient := Nat.div_add_mod (length + chunk) chunk
  have remainder := Nat.mod_lt (length + chunk) positive
  rw [roomAbove, Nat.mul_comm]
  omega

theorem allocate_sound (length chunk : Nat) : (allocate length chunk).Sound := by
  have capacity : (allocate length chunk).capacity = roomAbove length (chunkOrDefault chunk) := by
    rw [capacity_eq, allocate, Content.toBytes_zeros, Bytes.zeros_length]
  constructor
  case chunked => exact chunkOrDefault_pos chunk
  case inside =>
    rw [capacity]
    exact le_roomAbove length (chunkOrDefault_pos chunk)
  case whole =>
    rw [capacity]
    exact Nat.dvd_mul_left _ _
  case zeroed =>
    rw [capacity, allocate, Content.toBytes_zeros, Bytes.zeros, List.drop_replicate]
    rfl

theorem ofBytes_eq_put (bytes : Bytes) (chunk : Nat) :
    ofBytes bytes chunk = (allocate bytes.length chunk).put 0 bytes := by
  simp [ofBytes, Block.put, allocate]

theorem ofBytes_sound (bytes : Bytes) (chunk : Nat) : (ofBytes bytes chunk).Sound := by
  rw [ofBytes_eq_put]
  apply (allocate_sound bytes.length chunk).put
  rw [Nat.zero_add]
  exact (allocate_sound bytes.length chunk).inside

def grownFor (block : Block) (needed : Nat) : Block :=
  { block with storage := block.storage.resize (roomFor needed block.chunk) }

theorem grownFor_capacity (block : Block) (needed : Nat) :
    (block.grownFor needed).capacity = roomFor needed block.chunk := by
  rw [capacity_eq, grownFor, Content.toBytes_resize, List.length_append, List.length_take,
    Bytes.zeros_length]
  omega

section Grown

variable {needed : Nat} (sound : block.Sound) (more : block.capacity < needed)

include sound more

theorem Sound.grown_storage :
    (block.grownFor needed).storage.toBytes = block.data.padTo (roomFor needed block.chunk) := by
  have room := le_roomFor needed sound.chunked
  have known := capacity_eq block
  rw [grownFor, Content.toBytes_resize, List.take_of_length_le (by omega), ← known, sound.storage_eq,
    Bytes.padTo, Bytes.padTo, List.append_assoc, Bytes.zeros, Bytes.zeros, Bytes.zeros,
    List.replicate_append_replicate]
  have inside := sound.inside
  have length := block.data_length
  congr 2
  omega

theorem Sound.grown : (block.grownFor needed).Sound where
  chunked := sound.chunked
  inside := by
    rw [grownFor_capacity]
    have inside := sound.inside
    have room := le_roomFor needed sound.chunked
    exact Nat.le_trans inside (Nat.le_of_lt (Nat.lt_of_lt_of_le more room))
  whole := by
    rw [grownFor_capacity]
    exact roomFor_whole needed block.chunk
  zeroed := by
    rw [grownFor_capacity, sound.grown_storage more]
    exact Bytes.drop_padTo _ _ (Nat.le_of_eq block.data_length)

theorem Sound.grown_data : (block.grownFor needed).data = block.data := by
  rw [(sound.grown more).data_eq, sound.grown_storage more, Bytes.padTo]
  exact List.take_left' block.data_length

end Grown

/-- What a block is after bytes were written from `start` on. -/
structure Receives (old : Block) (start : Nat) (bytes : Bytes) (new : Block) : Prop where
  data : new.data = (old.data.padTo (start + bytes.length)).overwrite start bytes
  length : new.length = max old.length (start + bytes.length)
  chunk : new.chunk = old.chunk
  kept : start + bytes.length ≤ old.capacity → new.capacity = old.capacity
  grown : old.capacity < start + bytes.length →
    old.chunk ∣ new.capacity ∧ start + bytes.length ≤ new.capacity
      ∧ ∀ room, old.chunk ∣ room → start + bytes.length ≤ room → new.capacity ≤ room

theorem Sound.put_receives {start : Nat} {bytes : Bytes} (sound : block.Sound)
    (fits : start + bytes.length ≤ block.capacity) :
    block.Receives start bytes (block.put start bytes) where
  data := sound.put_data fits
  length := rfl
  chunk := rfl
  kept := fun _ => sound.put_capacity fits
  grown := fun more => absurd fits (Nat.not_le_of_lt more)

theorem Sound.grown_receives {start : Nat} {bytes : Bytes} (sound : block.Sound)
    (more : block.capacity < start + bytes.length) :
    block.Receives start bytes ((block.grownFor (start + bytes.length)).put start bytes) := by
  have larger := sound.grown more
  have capacity := grownFor_capacity
  have enough := le_roomFor (start + bytes.length) sound.chunked
  have fits : start + bytes.length ≤ (block.grownFor (start + bytes.length)).capacity := by
    rw [capacity]
    exact enough
  constructor
  case data => rw [larger.put_data fits, sound.grown_data more]
  case length => rfl
  case chunk => rfl
  case kept => exact fun fitted => absurd fitted (Nat.not_le_of_lt more)
  case grown =>
    intro _
    rw [larger.put_capacity fits, capacity]
    refine ⟨roomFor_whole _ _, enough, ?_⟩
    intro room whole reaches
    exact roomFor_le sound.chunked whole reaches

theorem Sound.store {canGrow : Bool} {bytes : Bytes} {position : Int} {new : Block}
    (sound : block.Sound) (stored : block.store canGrow bytes position = .ok new) :
    new.Sound
      ∧ block.Receives (if position < 0 then block.length else position.toNat) bytes new := by
  rw [Block.store] at stored
  generalize (if position < 0 then block.length else position.toNat) = start at stored ⊢
  by_cases fits : start + bytes.length ≤ block.capacity
  · simp only [reserve, if_pos fits, Except.ok.injEq] at stored
    subst stored
    exact ⟨sound.put fits, sound.put_receives fits⟩
  · have more : block.capacity < start + bytes.length := Nat.lt_of_not_le fits
    cases canGrow with
    | false => simp [reserve, if_neg fits] at stored
    | true =>
        simp only [reserve, if_neg fits, if_true, Except.ok.injEq] at stored
        subst stored
        have room := le_roomFor (start + bytes.length) sound.chunked
        rw [← grownFor_capacity] at room
        exact ⟨(sound.grown more).put room, sound.grown_receives more⟩

end Block

end Calculator
