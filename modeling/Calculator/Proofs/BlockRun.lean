import Calculator.Proofs.Block

/-!
# Runs of calls on a block

A block shows its data, its capacity and its chunk. What a call makes of these is said here without the
storage behind them, and every block that was built follows it: the storage past the data is zero in
every state, so that nothing which was cut off can come back.
-/

namespace Calculator

namespace Bytes

def resized (bytes : Bytes) (length : Nat) : Bytes :=
  padTo (bytes.take length) length

theorem resized_length (bytes : Bytes) (length : Nat) : (bytes.resized length).length = length := by
  rw [resized, padTo_length, List.length_take]
  omega

theorem padTo_padTo (bytes : Bytes) {first second : Nat} (larger : first ≤ second) :
    (bytes.padTo first).padTo second = bytes.padTo second := by
  have length := bytes.padTo_length first
  rw [padTo, length, padTo, List.append_assoc, zeros, zeros, List.replicate_append_replicate, padTo,
    zeros]
  congr 2
  omega

theorem resized_of_le {bytes : Bytes} {length : Nat} (enough : bytes.length ≤ length) :
    bytes.resized length = bytes.padTo length := by
  rw [resized, List.take_of_length_le enough]

theorem resized_padTo (bytes : Bytes) (room length : Nat) :
    (bytes.padTo room).resized length = bytes.resized length := by
  have padded := bytes.padTo_length room
  by_cases cut : length ≤ bytes.length
  · have front : (bytes.padTo room).take length = bytes.take length :=
      List.take_append_of_le_length cut
    rw [resized, front]
    rfl
  · rw [resized_of_le (by omega : bytes.length ≤ length)]
    by_cases inside : length ≤ room
    · have shown := bytes.take_padTo inside
      rw [Nat.max_eq_right (by omega)] at shown
      rw [resized, shown, padTo_of_le]
      rw [padTo_length]
      omega
    · rw [resized_of_le (by omega), padTo_padTo bytes (by omega)]

theorem getElem?_padTo_of_le {bytes : Bytes} {length index : Nat} (past : bytes.length ≤ index)
    (shown : index < length) : (bytes.padTo length)[index]? = some 0 := by
  rw [padTo, List.getElem?_append_right past, zeros, List.getElem?_replicate_of_lt]
  omega

theorem overwrite_exposes {bytes patch : Bytes} {start index : Nat} (past : bytes.length ≤ index)
    (shown : index < ((bytes.padTo (start + patch.length)).overwrite start patch).length) :
    ((bytes.padTo (start + patch.length)).overwrite start patch)[index]?
      = some ((zeros start ++ patch).getD index 0) := by
  have padded := bytes.padTo_length (start + patch.length)
  rw [overwrite_length (by omega), padded] at shown
  have front : ((bytes.padTo (start + patch.length)).take start).length = start := by
    rw [List.length_take]
    omega
  rw [overwrite, List.append_assoc]
  rw [List.getD_eq_getElem?_getD]
  by_cases before : index < start
  · rw [List.getElem?_append_left (by omega), List.getElem?_take_of_lt before,
      getElem?_padTo_of_le past (by omega), List.getElem?_append_left (by rwa [zeros_length]), zeros,
      List.getElem?_replicate_of_lt before]
    rfl
  · have written : index - start < patch.length := by omega
    rw [List.getElem?_append_right (by omega), front, List.getElem?_append_left written,
      List.getElem?_append_right (by rw [zeros_length]; omega), zeros_length,
      List.getElem?_eq_getElem written]
    rfl

end Bytes

theorem Content.toBytes_resize_eq (content : Content) (length : Nat) :
    (content.resize length).toBytes = content.toBytes.resized length := by
  rw [toBytes_resize, Bytes.resized, Bytes.padTo, List.length_take]
  congr 2
  omega

namespace Block

variable {block : Block}

/-- All that a block shows of itself. -/
structure View where
  data : Bytes
  capacity : Nat
  chunk : Nat
  deriving DecidableEq, Repr

def view (block : Block) : View :=
  ⟨block.data, block.capacity, block.chunk⟩

@[simp]
theorem view_data (block : Block) : block.view.data = block.data := rfl

@[simp]
theorem view_capacity (block : Block) : block.view.capacity = block.capacity := rfl

/-- Writes into the data. A write that reaches past the data is refused. -/
def edit (block : Block) (start : Nat) (bytes : Bytes) : Block :=
  if start + bytes.length ≤ block.length then
    { block with storage := block.storage.write start bytes }
  else block

inductive Call where
  | reserve (needed : Nat) (canGrow : Bool)
  | write (start : Nat) (bytes : Bytes)
  | extend (length : Nat)
  | resize (length chunk : Int)
  | truncate
  | fill (byte : UInt8) (start count : Nat)
  | edit (start : Nat) (bytes : Bytes)

namespace Call

/-- The block after a call. A call that is refused leaves it. -/
def perform (call : Call) (block : Block) : Block :=
  match call with
  | reserve needed canGrow =>
      match block.reserve needed canGrow with
      | .grown larger => larger
      | _ => block
  | write start bytes =>
      match block.writeAt start bytes with
      | .ok written => written
      | .error _ => block
  | extend length => block.extend length
  | resize length chunk => block.resize length chunk
  | truncate => truncated
  | fill byte start count => block.fill byte start count
  | edit start bytes => block.edit start bytes

def performAll (calls : List Call) (block : Block) : Block :=
  calls.foldl (fun block call => call.perform block) block

/-- What a call makes of what the block shows. -/
def change (call : Call) (view : View) : View :=
  match call with
  | reserve needed canGrow =>
      if view.capacity < needed && canGrow then
        { view with capacity := roomFor needed view.chunk }
      else view
  | write start bytes =>
      if start + bytes.length ≤ view.capacity then
        { view with data := (view.data.padTo (start + bytes.length)).overwrite start bytes }
      else view
  | extend length => { view with data := view.data.padTo (min length view.capacity) }
  | resize length chunk =>
      let length := if length < 0 then view.data.length else length.toNat
      let chunk := if chunk < 0 then view.chunk else chunkOrDefault chunk.toNat
      { data := view.data.resized length, capacity := roomAbove length chunk, chunk }
  | truncate => { data := [], capacity := 1, chunk := 1 }
  | fill byte start count =>
      let first := min start view.data.length
      let count := min count (view.data.length - first)
      { view with data := view.data.overwrite first (List.replicate count byte) }
  | edit start bytes =>
      if start + bytes.length ≤ view.data.length then
        { view with data := view.data.overwrite start bytes }
      else view

end Call

/-- A block whose storage is its data with zeros behind it is sound. -/
theorem sound_of_storage {data : Bytes} {capacity : Nat}
    (storage : block.storage.toBytes = data.padTo capacity) (length : block.length = data.length)
    (chunked : 0 < block.chunk) (inside : data.length ≤ capacity) (whole : block.chunk ∣ capacity) :
    block.Sound ∧ block.view = ⟨data, capacity, block.chunk⟩ := by
  have room : block.capacity = capacity := by
    rw [capacity_eq, storage, Bytes.padTo_length, Nat.max_eq_right inside]
  have sound : block.Sound := {
    chunked
    inside := by rwa [room, length]
    whole := by rwa [room]
    zeroed := by rw [storage, room, Bytes.drop_padTo _ _ (Nat.le_of_eq length.symm)] }
  refine ⟨sound, ?_⟩
  rw [view, room, sound.data_eq, storage, length, Bytes.padTo, List.take_left]

section Calls

variable (sound : block.Sound)

include sound

theorem Sound.view_put {start : Nat} {bytes : Bytes} (fits : start + bytes.length ≤ block.capacity) :
    (block.put start bytes).view
      = { block.view with data := (block.data.padTo (start + bytes.length)).overwrite start bytes } := by
  rw [view, sound.put_data fits, sound.put_capacity fits]
  rfl

theorem Sound.reserve (needed : Nat) (canGrow : Bool) :
    ((Call.reserve needed canGrow).perform block).Sound
      ∧ ((Call.reserve needed canGrow).perform block).view
          = (Call.reserve needed canGrow).change block.view := by
  have performed : (Call.reserve needed canGrow).perform block
      = if block.capacity < needed && canGrow then block.grownFor needed else block := by
    rw [Call.perform, Block.reserve]
    by_cases fits : needed ≤ block.capacity
    · simp [fits, Nat.not_lt_of_le fits]
    · cases canGrow <;> simp [fits, Nat.lt_of_not_le fits, grownFor]
  rw [performed]
  by_cases grows : (block.capacity < needed && canGrow) = true
  · have more : block.capacity < needed := by simp_all
    have changed : (Call.reserve needed canGrow).change block.view
        = { block.view with capacity := roomFor needed block.chunk } := if_pos grows
    rw [if_pos grows, changed, view, sound.grown_data more, grownFor_capacity]
    exact ⟨sound.grown more, rfl⟩
  · rw [if_neg grows]
    exact ⟨sound, (if_neg grows).symm⟩

theorem Sound.write (start : Nat) (bytes : Bytes) :
    ((Call.write start bytes).perform block).Sound
      ∧ ((Call.write start bytes).perform block).view
          = (Call.write start bytes).change block.view := by
  rw [Call.perform, writeAt]
  by_cases fits : start + bytes.length ≤ block.capacity
  · rw [if_pos fits]
    exact ⟨sound.put fits, (sound.view_put fits).trans (if_pos fits).symm⟩
  · rw [if_neg fits]
    exact ⟨sound, (if_neg fits).symm⟩

theorem Sound.write_inside {start : Nat} {bytes : Bytes} (fits : start + bytes.length ≤ block.length) :
    ({ block with storage := block.storage.write start bytes } : Block).Sound
      ∧ ({ block with storage := block.storage.write start bytes } : Block).view
          = { block.view with data := block.data.overwrite start bytes } := by
  have put : ({ block with storage := block.storage.write start bytes } : Block)
      = block.put start bytes := by
    rw [Block.put, Nat.max_eq_left fits]
  have room := Nat.le_trans fits sound.inside
  rw [put, sound.view_put room, Bytes.padTo_of_le (by rwa [block.data_length])]
  exact ⟨sound.put room, rfl⟩

theorem Sound.extend (length : Nat) :
    (block.extend length).Sound
      ∧ (block.extend length).view
          = { block.view with data := block.data.padTo (min length block.capacity) } := by
  have shown := block.data_length
  have inside := sound.inside
  rw [Block.extend]
  split
  · refine sound_of_storage ?_ ?_ sound.chunked ?_ sound.whole
    · rw [view_capacity, sound.storage_eq, Bytes.padTo_padTo _ (Nat.min_le_right _ _)]
    · rw [Bytes.padTo_length]
      show min length block.capacity = _
      omega
    · rw [view_capacity, Bytes.padTo_length]
      omega
  · rw [Bytes.padTo_of_le (by omega)]
    exact ⟨sound, rfl⟩

theorem Sound.resize (length chunk : Int) :
    (block.resize length chunk).Sound
      ∧ (block.resize length chunk).view = (Call.resize length chunk).change block.view := by
  have chunked : 0 < if chunk < 0 then block.chunk else chunkOrDefault chunk.toNat := by
    split
    · exact sound.chunked
    · exact chunkOrDefault_pos _
  rw [Block.resize, Call.change]
  simp only [view, block.data_length]
  generalize (if length < 0 then block.length else length.toNat) = newLength
  generalize (if chunk < 0 then block.chunk else chunkOrDefault chunk.toNat) = newChunk at chunked
  have room := le_roomAbove newLength chunked
  have shown := block.data.resized_length newLength
  refine sound_of_storage ?_ shown.symm chunked (by rwa [shown]) (Nat.dvd_mul_left _ _)
  rw [Content.toBytes_resize_eq, Content.toBytes_resize_eq, sound.storage_eq, Bytes.resized_padTo,
    Bytes.resized_of_le (by rwa [shown])]

theorem Sound.fill (byte : UInt8) (start count : Nat) :
    (block.fill byte start count).Sound
      ∧ (block.fill byte start count).view = (Call.fill byte start count).change block.view := by
  have same : min (min start block.length + count) block.length - min start block.length
      = min count (block.length - min start block.length) := by omega
  rw [Block.fill, Call.change]
  simp only [view, block.data_length, same]
  apply sound.write_inside
  rw [List.length_replicate]
  omega

omit sound in
theorem truncated_sound : truncated.Sound ∧ truncated.view = ⟨[], 1, 1⟩ :=
  sound_of_storage (Content.toBytes_zeros 1) rfl Nat.one_pos (Nat.zero_le 1) (Nat.dvd_refl 1)

/-- A call keeps a block sound, and what the block shows afterwards depends on nothing but what it
showed before. -/
theorem Sound.perform (call : Call) :
    (call.perform block).Sound ∧ (call.perform block).view = call.change block.view := by
  cases call with
  | reserve needed canGrow => exact sound.reserve needed canGrow
  | write start bytes => exact sound.write start bytes
  | extend length => exact sound.extend length
  | resize length chunk => exact sound.resize length chunk
  | truncate => exact truncated_sound
  | fill byte start count => exact sound.fill byte start count
  | edit start bytes =>
      rw [Call.perform, Call.change, edit]
      simp only [view, block.data_length]
      by_cases fits : start + bytes.length ≤ block.length
      · rw [if_pos fits, if_pos fits]
        exact sound.write_inside fits
      · rw [if_neg fits, if_neg fits]
        exact ⟨sound, rfl⟩

end Calls

/-- What a run of calls makes of a block shows in what the block showed at first. -/
theorem Sound.performAll (sound : block.Sound) (calls : List Call) :
    (Call.performAll calls block).Sound
      ∧ (Call.performAll calls block).view
          = calls.foldl (fun view call => call.change view) block.view := by
  induction calls generalizing block with
  | nil => exact ⟨sound, rfl⟩
  | cons call rest ih =>
      obtain ⟨reached, shown⟩ := sound.perform call
      obtain ⟨kept, followed⟩ := ih reached
      rw [shown] at followed
      exact ⟨kept, followed⟩

theorem put_eq_write {start : Nat} {bytes : Bytes} (fits : start + bytes.length ≤ block.capacity) :
    block.put start bytes = (Call.write start bytes).perform block := by
  rw [Call.perform, writeAt, if_pos fits]

theorem Sound.store_eq (sound : block.Sound) {canGrow : Bool} {bytes : Bytes} {position : Int}
    {new : Block} (stored : block.store canGrow bytes position = .ok new) :
    let start := if position < 0 then block.length else position.toNat
    new = Call.performAll [.reserve (start + bytes.length) canGrow, .write start bytes] block := by
  rw [Block.store] at stored
  generalize (if position < 0 then block.length else position.toNat) = start at stored ⊢
  dsimp only [Call.performAll, List.foldl]
  by_cases fits : start + bytes.length ≤ block.capacity
  · have reserved : (Call.reserve (start + bytes.length) canGrow).perform block = block := by
      rw [Call.perform, Block.reserve, if_pos fits]
    simp only [Block.reserve, if_pos fits, Except.ok.injEq] at stored
    rw [reserved, ← stored, put_eq_write fits]
  · cases canGrow with
    | false => simp [Block.reserve, if_neg fits] at stored
    | true =>
        have reserved : (Call.reserve (start + bytes.length) true).perform block
            = block.grownFor (start + bytes.length) := by
          rw [Call.perform, Block.reserve, if_neg fits]
          rfl
        have room := le_roomFor (start + bytes.length) sound.chunked
        rw [← grownFor_capacity] at room
        simp only [Block.reserve, if_neg fits, if_true, Except.ok.injEq] at stored
        rw [reserved, ← stored, ← put_eq_write room]
        rfl

/-- Where a block comes from. -/
inductive Origin where
  | allocate (length chunk : Nat)
  | ofBytes (bytes : Bytes) (chunk : Nat)

def Origin.build : Origin → Block
  | .allocate length chunk => Block.allocate length chunk
  | .ofBytes bytes chunk => Block.ofBytes bytes chunk

theorem Origin.sound (origin : Origin) : origin.build.Sound := by
  cases origin with
  | allocate length chunk => exact allocate_sound length chunk
  | ofBytes bytes chunk => exact ofBytes_sound bytes chunk

def Built (block : Block) : Prop :=
  ∃ (origin : Origin) (calls : List Call), block = Call.performAll calls origin.build

theorem Origin.built (origin : Origin) : origin.build.Built :=
  ⟨origin, [], rfl⟩

theorem Built.perform (built : block.Built) (call : Call) : (call.perform block).Built := by
  obtain ⟨origin, calls, rfl⟩ := built
  refine ⟨origin, calls ++ [call], ?_⟩
  rw [Call.performAll, Call.performAll, List.foldl_append]
  rfl

theorem Built.performAll (built : block.Built) (calls : List Call) :
    (Call.performAll calls block).Built := by
  induction calls generalizing block with
  | nil => exact built
  | cons call rest ih => exact ih (built.perform call)

theorem Built.sound (built : block.Built) : block.Sound := by
  obtain ⟨origin, calls, rfl⟩ := built
  exact (origin.sound.performAll calls).1

theorem Built.stored (built : block.Built) {canGrow : Bool} {bytes : Bytes} {position : Int}
    {new : Block} (stored : block.store canGrow bytes position = .ok new) : new.Built := by
  rw [built.sound.store_eq stored]
  exact built.performAll _

namespace Call

/-- The byte that a call writes to a place that the block did not show before; zero where it writes
none. -/
def brought (call : Call) (index : Nat) : UInt8 :=
  match call with
  | write start bytes => (Bytes.zeros start ++ bytes).getD index 0
  | _ => 0

/-- The length to which a call cuts the data. -/
def cutsTo? : Call → Option Nat
  | resize length _ => if 0 ≤ length then some length.toNat else none
  | truncate => some 0
  | _ => none

theorem change_exposes (call : Call) {view : View} {index : Nat} (past : view.data.length ≤ index)
    (shown : index < (call.change view).data.length) :
    (call.change view).data[index]? = some (call.brought index) := by
  have grows (same : (call.change view).data.length = view.data.length) : False := by omega
  cases call with
  | reserve needed canGrow =>
      refine (grows ?_).elim
      rw [change]
      split <;> rfl
  | write start bytes =>
      by_cases fits : start + bytes.length ≤ view.capacity
      · have changed : ((write start bytes).change view).data
            = (view.data.padTo (start + bytes.length)).overwrite start bytes :=
          congrArg View.data (if_pos fits)
        rw [changed] at shown ⊢
        exact Bytes.overwrite_exposes past shown
      · have changed : (write start bytes).change view = view := if_neg fits
        exact (grows (by rw [changed])).elim
  | extend length =>
      rw [change, Bytes.padTo_length] at shown
      exact Bytes.getElem?_padTo_of_le past (by omega)
  | resize length chunk =>
      simp only [change] at shown ⊢
      rw [Bytes.resized_length] at shown
      rw [Bytes.resized_of_le (by omega)]
      exact Bytes.getElem?_padTo_of_le past shown
  | truncate => exact absurd shown (Nat.not_lt_zero index)
  | fill byte start count =>
      refine (grows ?_).elim
      apply Bytes.overwrite_length
      rw [List.length_replicate]
      omega
  | edit start bytes =>
      refine (grows ?_).elim
      rw [change]
      split
      · exact Bytes.overwrite_length (by assumption)
      · rfl

theorem change_of_cut {cut : Call} {kept : Nat} (cuts : cut.cutsTo? = some kept) {one other : View}
    (chunk : other.chunk = one.chunk) (inside : kept ≤ one.data.length)
    (leads : one.data.take kept <+: other.data) : cut.change other = cut.change one := by
  cases cut with
  | resize length newChunk =>
      obtain ⟨positive, cutting⟩ := Option.ite_none_right_eq_some.mp cuts
      have toKept : length.toNat = kept := Option.some.inj cutting
      have same : other.data.take kept = one.data.take kept := by
        have front := List.prefix_iff_eq_take.mp leads
        rw [List.length_take, Nat.min_eq_left inside] at front
        exact front.symm
      simp only [change, if_neg (Int.not_lt.mpr positive), toKept, chunk, Bytes.resized, same]
  | truncate => rfl
  | _ => cases cuts

end Call

/-- What every block that was built keeps to. -/
structure Guarded (block : Block) : Prop where
  sound : block.Sound
  /-- Growth shows zeros, and the bytes just written. -/
  exposes : ∀ (call : Call) (index : Nat), block.length ≤ index →
    index < (call.perform block).length →
      (call.perform block).data[index]? = some (call.brought index)
  /-- Whatever is called after a cut, the block shows what any block shows that began with the bytes
  that were kept: nothing that was cut off is seen again. -/
  forgets : ∀ (cut : Call) (kept : Nat), cut.cutsTo? = some kept → kept ≤ block.length →
    ∀ other : Block, other.Built → other.chunk = block.chunk →
      block.data.take kept <+: other.data → ∀ calls : List Call,
        (Call.performAll (cut :: calls) other).view = (Call.performAll (cut :: calls) block).view
  /-- A copy changes the block by calls too. -/
  stores : ∀ (canGrow : Bool) (bytes : Bytes) (position : Int) (new : Block),
    block.store canGrow bytes position = .ok new →
      let start := if position < 0 then block.length else position.toNat
      new = Call.performAll [.reserve (start + bytes.length) canGrow, .write start bytes] block

theorem Built.guarded (built : block.Built) : block.Guarded where
  sound := built.sound
  exposes := by
    intro call index past shown
    obtain ⟨sound, followed⟩ := built.sound.perform call
    rw [← data_length] at past shown
    rw [← view_data, followed] at shown ⊢
    exact call.change_exposes past shown
  forgets := by
    intro cut kept cuts inside other others chunk leads calls
    rw [(others.sound.performAll _).2, (built.sound.performAll _).2, List.foldl_cons, List.foldl_cons,
      Call.change_of_cut cuts chunk (by rwa [view_data, data_length]) leads]
  stores := by
    intro canGrow bytes position new stored
    exact built.sound.store_eq stored

end Block

end Calculator
