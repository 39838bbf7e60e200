import Calculator.Proofs.CopyIntoBlock
import Calculator.Proofs.CopyPermission

/-!
# When a copy succeeds

Between values that are no files a copy succeeds exactly when nothing protects against it, the kinds
have a route, the source index is not negative, and there is either nothing to copy or room for it. What
there is to copy is counted in units of the source, and room in what these units are to the
destination.
-/

namespace Calculator

def Succeeds {ε σ α : Type} (ran : Except ε α × σ) : Prop :=
  ∃ result, ran.1 = .ok result

namespace Copy

/-- The kinds that a kind can be copied to, files left aside. -/
def reaches : Kind → List Kind
  | .block | .namedBlock => [.block, .namedBlock, .number, .text, .matrix]
  | .text | .octet => [.block, .namedBlock, .text]
  | .number => [.block, .namedBlock]
  | .matrix => [.block, .namedBlock, .matrix, .list]
  | .list => [.matrix, .list]
  | _ => []

/-- How many units a source has for a kind of destination. Only a block takes the NUL behind the run of
an octet. -/
def offered (blocks : NamedBlocks) (source : Value) (destination : Kind) : Nat :=
  match source.data with
  | .block block => block.length
  | .namedBlock id => ((blocks.storage? id).map Block.length).getD 0
  | .text payload => payload.content.length
  | .octet target index =>
      (((octetBytes blocks target).drop index).takeWhile (· != 0)).length
        + if isBlock destination then 1 else 0
  | .number payload => payload.content.numeratorLength
  | .matrix _ slots => slots.length
  | .list items => items.length
  | _ => 0

/-- How many bytes a block is given with some units: a text brings a NUL, and a number has four bytes to
the unit. -/
def extent (source : Value) (count : Nat) : Nat :=
  match source.data with
  | .text _ => count + 1
  | .number _ => Word.size * count
  | _ => count

def BlockHasRoom (block : Block) (canGrow : Bool) (position : Int) (size : Nat) : Prop :=
  (if position < 0 then block.length else position.toNat) + size ≤ block.capacity ∨ canGrow = true

/-- The destination has room for that many units of the source. -/
def HasRoom (blocks : NamedBlocks) (source destination : Value) (position : Int) (count : Nat) : Prop :=
  match destination.data with
  | .block block =>
      BlockHasRoom block destination.protection.canGrow position (extent source count)
  | .namedBlock id =>
      ∃ named block, blocks.get? id = some named ∧ named.block = some block
        ∧ BlockHasRoom block (destination.protection.canGrow && named.protection.canGrow) position
          (extent source count)
  | .matrix _ slots => (max position 0).toNat + count ≤ slots.length
  | .list items => (max position 0).toNat + count ≤ items.length
  | _ => True

/-- What a copy between values that are no files depends on. -/
structure Allowed (blocks : NamedBlocks) (source : Value) (start count : Int) (destination : Value)
    (position : Int) : Prop where
  unprotected : Unprotected blocks source destination
  routed : destination.kind ∈ reaches source.kind
  indexed : 0 ≤ start
  fits : clamp (offered blocks source destination.kind) start.toNat count = 0
    ∨ HasRoom blocks source destination position
        (clamp (offered blocks source destination.kind) start.toNat count)

theorem routed_iff {source destination : Kind} (from_value : source ≠ .file)
    (into_value : destination ≠ .file) : Routed source destination ↔ destination ∈ reaches source := by
  unfold Routed
  cases source <;> cases destination <;> first | decide | contradiction

theorem select_length {α : Type} (units : List α) (start : Nat) (count : Int) :
    (select units start count).length = clamp units.length start count := by
  rw [select, List.length_take, List.length_drop]
  exact Nat.min_eq_left (clamp_le _ _ _)

variable {machine : Machine} {blocks : NamedBlocks} {source destination : Value} {start : Nat}
  {count position : Int} {exclusive : Bool}

theorem Unprotected.stored (free : Unprotected blocks source destination) {id : BlockId}
    (reads : sourceBlock? source = some id) : ∃ block, blocks.storage? id = some block := by
  obtain ⟨named, listed, _, stored⟩ := free.readable id reads
  obtain ⟨block, storage⟩ := Option.isSome_iff_exists.mp stored
  exact ⟨block, by rw [NamedBlocks.storage?, listed, Option.bind_some, storage]⟩

theorem octetRun_ok (free : Unprotected blocks source destination) {target : OctetTarget} {index : Nat}
    (shape : source.data = .octet target index) :
    octetRun blocks target index
      = .ok (((octetBytes blocks target).drop index).takeWhile (· != 0)) := by
  have found : ∃ run, octetRun blocks target index = .ok run := by
    unfold octetRun
    cases target with
    | text payload => exact ⟨_, rfl⟩
    | namedBlock id =>
        have reads : sourceBlock? source = some id := by rw [sourceBlock?, shape]
        obtain ⟨block, stored⟩ := free.stored reads
        simp only [stored]
        exact ⟨_, rfl⟩
  obtain ⟨run, read⟩ := found
  rw [read, octetRun_eq read]

/-- The block of a block source can be read, and its bytes are its units. -/
theorem blockOf_source (free : Unprotected blocks source destination)
    (block : isBlock source.kind = true) :
    ∃ held, blockOf blocks source = .ok held ∧ (∀ kind, offered blocks source kind = held.length)
      ∧ ∀ count, extent source count = count := by
  unfold blockOf offered extent
  rcases isBlock_shape block with ⟨held, shape⟩ | ⟨id, shape⟩
  · rw [shape]
    exact ⟨held, rfl, fun _ => rfl, fun _ => rfl⟩
  · have reads : sourceBlock? source = some id := by rw [sourceBlock?, shape]
    obtain ⟨held, stored⟩ := free.stored reads
    rw [shape]
    refine ⟨held, ?_, fun _ => ?_, fun _ => rfl⟩
    · simp only [stored]
    · simp only [stored, Option.map_some, Option.getD_some]

theorem selectBytes_length (block : Block) (start : Nat) (count : Int) :
    (selectBytes block start count).length = clamp block.length start count := by
  rw [selectBytes_eq, select_length, block.data_length]

def Gathers (gathered : Except CopyError Bytes) (count size : Nat) : Prop :=
  ∃ bytes, gathered = .ok bytes ∧ (bytes = [] ↔ count = 0) ∧ (count ≠ 0 → bytes.length = size)

theorem gathers_of_length {bytes : Bytes} {count : Nat} (length : bytes.length = count) :
    Gathers (.ok bytes) count count :=
  ⟨bytes, rfl, by rw [← length, List.length_eq_zero_iff], fun _ => length⟩

/-- A block brings the same bytes to every destination. -/
theorem block_gathers (free : Unprotected blocks source destination)
    (direct : isBlock source.kind = true) (start : Nat) (count : Int) :
    ∃ bytes, bytesForBlock blocks source start count = .ok bytes
      ∧ bytesForText blocks source start count = .ok bytes
      ∧ elements blocks source start count = .ok (bytes.map fun byte => Value.ofInt byte.toNat)
      ∧ ∀ kind, bytes.length = clamp (offered blocks source kind) start count
        ∧ extent source bytes.length = bytes.length := by
  obtain ⟨held, read, counted, sized⟩ := blockOf_source free direct
  have length := selectBytes_length held start count
  have taken : bytesForBlock blocks source start count = .ok (selectBytes held start count)
      ∧ bytesForText blocks source start count = .ok (selectBytes held start count)
      ∧ elements blocks source start count
        = .ok ((selectBytes held start count).map fun byte => Value.ofInt byte.toNat) := by
    unfold bytesForBlock bytesForText elements
    rw [read]
    rcases isBlock_shape direct with ⟨_, shape⟩ | ⟨_, shape⟩ <;> rw [shape] <;> exact ⟨rfl, rfl, rfl⟩
  obtain ⟨bytes, text, values⟩ := taken
  exact ⟨_, bytes, text, values, fun kind => ⟨by rw [counted, length], sized _⟩⟩

/-- A source that can be copied to a block brings the bytes of its units. -/
theorem bytesForBlock_gathers (free : Unprotected blocks source destination)
    (routed : Kind.block ∈ reaches source.kind) {kind : Kind} (block : isBlock kind = true)
    (start : Nat) (count : Int) :
    Gathers (bytesForBlock blocks source start count) (clamp (offered blocks source kind) start count)
      (extent source (clamp (offered blocks source kind) start count)) := by
  by_cases direct : isBlock source.kind = true
  · obtain ⟨bytes, gathered, _, _, sized⟩ := block_gathers free direct start count
    obtain ⟨length, same⟩ := sized kind
    rw [gathered, ← length, same]
    exact gathers_of_length rfl
  · unfold bytesForBlock offered extent
    rw [Value.kind] at routed direct
    cases shape : source.data with
    | text payload =>
        have length := select_length payload.content start count
        dsimp only
        rw [← length]
        -- The NUL comes only behind units.
        by_cases nothing : select payload.content start count = []
        · rw [nothing]
          exact ⟨[], rfl, by simp, by simp⟩
        · rw [if_neg (by simpa using nothing)]
          exact ⟨_, rfl, by simp [nothing], fun _ => List.length_append⟩
    | octet target index =>
        dsimp only
        rw [octetRun_ok free shape, if_pos block]
        refine gathers_of_length ?_
        rw [select_length, List.length_append, List.length_singleton]
    | number payload =>
        have length := select_length payload.content.numeratorWords start count
        dsimp only
        rw [Number.numeratorLength, ← length]
        -- Here the size is not the count; words and bytes still run out together.
        refine ⟨_, rfl, ?_, fun _ => Word.image_length _⟩
        rw [← List.length_eq_zero_iff, Word.image_length, Word.size]
        omega
    | matrix bounds slots =>
        refine gathers_of_length ?_
        rw [List.length_map, select_length]
    | _ => simp [shape, reaches, Data.kind, isBlock] at routed direct

theorem bytesForText_gathers (free : Unprotected blocks source destination)
    (routed : Kind.text ∈ reaches source.kind) (start : Nat) (count : Int) :
    ∃ bytes, bytesForText blocks source start count = .ok bytes := by
  by_cases direct : isBlock source.kind = true
  · obtain ⟨bytes, _, gathered, _⟩ := block_gathers free direct start count
    exact ⟨bytes, gathered⟩
  · unfold bytesForText
    rw [Value.kind] at routed direct
    cases shape : source.data with
    | text payload => exact ⟨_, rfl⟩
    | octet target index =>
        dsimp only
        rw [octetRun_ok free shape]
        exact ⟨_, rfl⟩
    | _ => simp [shape, reaches, Data.kind, isBlock] at routed direct

/-- A source that can be copied to a matrix or list brings its units. -/
theorem elements_gathers (free : Unprotected blocks source destination)
    (routed : Kind.matrix ∈ reaches source.kind) (kind : Kind) (start : Nat) (count : Int) :
    ∃ values, elements blocks source start count = .ok values
      ∧ values.length = clamp (offered blocks source kind) start count := by
  by_cases direct : isBlock source.kind = true
  · obtain ⟨bytes, _, _, gathered, sized⟩ := block_gathers free direct start count
    exact ⟨_, gathered, by rw [List.length_map, (sized kind).1]⟩
  · unfold elements offered
    rw [Value.kind] at routed direct
    cases shape : source.data with
    | matrix bounds slots => exact ⟨_, rfl, select_length slots start count⟩
    | list items => exact ⟨_, rfl, select_length items start count⟩
    | _ => simp [shape, reaches, Data.kind, isBlock] at routed direct

theorem store_ok_iff (block : Block) (canGrow : Bool) (bytes : Bytes) (position : Int) :
    (∃ after, block.store canGrow bytes position = .ok after)
      ↔ BlockHasRoom block canGrow position bytes.length := by
  unfold Block.store Block.reserve BlockHasRoom
  by_cases fits : (if position < 0 then block.length else position.toNat) + bytes.length
      ≤ block.capacity
  · simp [fits]
  · cases canGrow <;> simp [fits]

theorem intoSlots_ok_iff (slots values : List Value) (position : Int) :
    (∃ after, intoSlots slots values position = .ok after)
      ↔ (max position 0).toNat + values.length ≤ slots.length := by
  have start : (max position 0).toNat = position.toNat := by omega
  unfold intoSlots
  rw [start]
  by_cases large : slots.length < position.toNat + values.length
  · simp [large]
  · simp [large, Nat.not_lt.mp large]

/-- The block of a destination is there, and has the room of the destination. -/
theorem blockOf_destination (free : Unprotected blocks source destination)
    (block : isBlock destination.kind = true) (taken : Nat) :
    ∃ held, blockOf blocks destination = .ok held
      ∧ (HasRoom blocks source destination position taken
        ↔ BlockHasRoom held (mayGrow blocks destination) position (extent source taken)) := by
  unfold blockOf HasRoom mayGrow destinationBlock?
  rcases isBlock_shape block with ⟨held, shape⟩ | ⟨id, shape⟩
  · rw [shape]
    exact ⟨held, rfl, by rw [Bool.and_true]⟩
  · have writes : destinationBlock? destination = some id := by rw [destinationBlock?, shape]
    obtain ⟨named, listed, _, stored⟩ := free.writable id writes
    obtain ⟨held, storage⟩ := Option.isSome_iff_exists.mp stored
    rw [shape]
    refine ⟨held, by simp [NamedBlocks.storage?, listed, storage], ?_⟩
    simp [listed, storage]

/-- A block takes bytes exactly where it has room for them. -/
theorem intoBlock_succeeds_iff (free : Unprotected machine.blocks source destination)
    (block : isBlock destination.kind = true) {bytes : Bytes} {taken : Nat}
    (sized : bytes.length = extent source taken) :
    Succeeds (intoBlock destination bytes position machine)
      ↔ HasRoom machine.blocks source destination position taken := by
  obtain ⟨held, read, room⟩ := blockOf_destination free block taken
  rw [room, ← sized, ← store_ok_iff, Succeeds, intoBlock, changeBlock_run read]
  cases held.store (mayGrow machine.blocks destination) bytes position with
  | ok after => exact iff_of_true ⟨_, rfl⟩ ⟨after, rfl⟩
  | error reason =>
      refine iff_of_false ?_ ?_
      · rintro ⟨_, ran⟩
        cases ran
      · rintro ⟨_, stored⟩
        cases stored

/-- A block is changed exactly where there is nothing to copy or room for it. -/
theorem route_block_succeeds_iff (free : Unprotected machine.blocks source destination)
    (routed : Kind.block ∈ reaches source.kind) (block : isBlock destination.kind = true) :
    Succeeds (route source start count destination position exclusive machine)
      ↔ clamp (offered machine.blocks source destination.kind) start count = 0
        ∨ HasRoom machine.blocks source destination position
          (clamp (offered machine.blocks source destination.kind) start count) := by
  have other : source.kind ≠ .file := by
    intro file
    rw [file] at routed
    cases routed
  obtain ⟨bytes, gathered, nothing, sized⟩ := bytesForBlock_gathers free routed block start count
  rw [route_into_block block other, gathered]
  dsimp only
  by_cases empty : bytes = []
  · rw [if_pos (by simpa using empty)]
    exact iff_of_true ⟨destination, rfl⟩ (.inl (nothing.mp empty))
  · rw [if_neg (by simpa using empty)]
    have taken := fun none => empty (nothing.mpr none)
    rw [intoBlock_succeeds_iff free block (sized taken)]
    exact ⟨.inr, fun fits => fits.resolve_left taken⟩

/-- What is stored into slots ends with the slots, and does nothing where nothing is brought. -/
theorem slots_succeed_iff (slots values : List Value) (build : List Value → Value) :
    Succeeds ((if values.isEmpty then pure destination
        else liftM (intoSlots slots values position) >>= fun stored => pure (build stored) : CopyM Value)
        machine)
      ↔ values.length = 0 ∨ (max position 0).toNat + values.length ≤ slots.length := by
  by_cases empty : values = []
  · rw [if_pos (by simpa using empty)]
    exact iff_of_true ⟨destination, rfl⟩ (.inl (by rw [empty]; rfl))
  · have some_values : values.length ≠ 0 := by simpa using empty
    rw [if_neg (by simpa using empty), ← intoSlots_ok_iff]
    cases intoSlots slots values position with
    | ok stored => exact iff_of_true ⟨build stored, rfl⟩ (.inr ⟨stored, rfl⟩)
    | error reason => exact iff_of_false nofun (by simp [some_values])

/-- Matrices and lists keep their size. -/
theorem route_slots_succeeds_iff (free : Unprotected machine.blocks source destination)
    (routed : Kind.matrix ∈ reaches source.kind)
    (container : destination.kind = .matrix ∨ destination.kind = .list) :
    Succeeds (route source start count destination position exclusive machine)
      ↔ clamp (offered machine.blocks source destination.kind) start count = 0
        ∨ HasRoom machine.blocks source destination position
          (clamp (offered machine.blocks source destination.kind) start count) := by
  obtain ⟨values, gathered, length⟩ := elements_gathers free routed destination.kind start count
  rw [← length]
  unfold route HasRoom
  rw [Effect.get_bind_run]
  rw [Value.kind] at container
  cases shape : destination.data with
  | matrix bounds slots =>
      simp only [gathered]
      rw [Effect.lift_ok_bind_run]
      exact slots_succeed_iff slots values fun stored =>
        { destination with data := .matrix bounds stored }
  | list items =>
      simp only [gathered]
      rw [Effect.lift_ok_bind_run]
      exact slots_succeed_iff items values fun stored => { destination with data := .list stored }
  | _ => simp [shape, Data.kind] at container

/-- Numbers and texts take whatever is brought. -/
theorem route_plain_succeeds (free : Unprotected machine.blocks source destination)
    (routed : destination.kind ∈ reaches source.kind)
    (plain : destination.kind = .number ∨ destination.kind = .text) (taken : Nat) :
    Succeeds (route source start count destination position exclusive machine)
      ∧ HasRoom machine.blocks source destination position taken := by
  unfold route HasRoom
  rw [Effect.get_bind_run]
  rw [Value.kind] at plain
  have kind : destination.kind = destination.data.kind := rfl
  cases shape : destination.data with
  | number payload =>
      have onward : Kind.number ∈ reaches source.kind := by
        rw [kind, shape] at routed
        exact routed
      have direct : isBlock source.kind = true := by
        revert onward
        cases source.kind <;> decide
      obtain ⟨bytes, gathered, _⟩ := block_gathers free direct start count
      simp only [gathered]
      rw [Effect.lift_ok_bind_run]
      refine ⟨?_, trivial⟩
      split <;> exact ⟨_, rfl⟩
  | text payload =>
      rw [kind, shape] at routed
      obtain ⟨bytes, gathered⟩ := bytesForText_gathers free routed start count
      simp only [gathered]
      rw [Effect.lift_ok_bind_run]
      refine ⟨?_, trivial⟩
      split <;> exact ⟨_, rfl⟩
  | _ => simp [shape, Data.kind] at plain

theorem route_succeeds_iff (free : Unprotected machine.blocks source destination)
    (routed : destination.kind ∈ reaches source.kind) :
    Succeeds (route source start count destination position exclusive machine)
      ↔ clamp (offered machine.blocks source destination.kind) start count = 0
        ∨ HasRoom machine.blocks source destination position
          (clamp (offered machine.blocks source destination.kind) start count) := by
  -- All that a kind reaches is gathered as for one kind: for a block, for a matrix, or without a limit.
  have table : (isBlock destination.kind = true ∧ Kind.block ∈ reaches source.kind)
      ∨ ((destination.kind = .matrix ∨ destination.kind = .list) ∧ Kind.matrix ∈ reaches source.kind)
      ∨ destination.kind = .number ∨ destination.kind = .text := by
    revert routed
    cases source.kind <;> cases destination.kind <;> decide
  rcases table with ⟨block, onward⟩ | ⟨container, onward⟩ | plain
  · exact route_block_succeeds_iff free onward block
  · exact route_slots_succeeds_iff free onward container
  · obtain ⟨succeeds, room⟩ := route_plain_succeeds free routed plain _
    exact iff_of_true succeeds (.inr room)

end Copy

open Copy

/-- Between values that are no files, a copy succeeds exactly when it is allowed. -/
theorem copy_succeeds_iff {source destination : Value} (from_value : source.kind ≠ .file)
    (into_value : destination.kind ≠ .file) (start count position : Int) (exclusive : Bool)
    (machine : Machine) :
    Succeeds (copy source start count destination position exclusive machine)
      ↔ Allowed machine.blocks source start count destination position := by
  rw [copy_run]
  cases admitted : permit machine.blocks source start destination with
  | error reason =>
      refine iff_of_false nofun fun allowed => ?_
      have passed := permit_ok_iff.mpr ⟨allowed.unprotected,
        (routed_iff from_value into_value).mpr allowed.routed, allowed.indexed⟩
      rw [admitted] at passed
      cases passed
  | ok _ =>
      obtain ⟨free, routed, indexed⟩ := permit_ok_iff.mp admitted
      have reached := (routed_iff from_value into_value).mp routed
      rw [route_succeeds_iff free reached]
      exact ⟨fun fits => ⟨free, reached, indexed, fits⟩, fun allowed => allowed.fits⟩

namespace OutcomeSample

def machine : Machine := Machine.new {} (Host.initial none none)

def narrow : Value where
  data := .block (Block.ofBytes [1] 1)
  protection := Protection.noRealloc

def text : Value := .ofText [0x61, 0x62]

/-- Behind its byte the block takes no unit, as one brings a NUL; over its byte it takes one. -/
theorem narrow_block_takes_what_fits :
    text.kind ≠ .file ∧ narrow.kind ≠ .file
      ∧ Succeeds (copy text 2 5 narrow (-1) false machine)
      ∧ ¬ Succeeds (copy text 1 5 narrow (-1) false machine)
      ∧ Succeeds (copy text 1 5 narrow 0 false machine) := by
  have value : text.kind ≠ .file := by decide
  have block : narrow.kind ≠ .file := by decide
  have free : Unprotected machine.blocks text narrow :=
    ⟨by decide, by decide, nofun, nofun⟩
  have routed : narrow.kind ∈ reaches text.kind := by decide
  refine ⟨value, block, ?_, ?_, ?_⟩
  · exact (copy_succeeds_iff value block 2 5 (-1) false machine).mpr
      ⟨free, routed, by decide, .inl rfl⟩
  · intro succeeds
    have allowed := (copy_succeeds_iff value block 1 5 (-1) false machine).mp succeeds
    rcases allowed.fits with nothing | fits | grows
    · exact absurd nothing (by decide)
    · exact absurd fits (by decide)
    · cases grows
  · exact (copy_succeeds_iff value block 1 5 0 false machine).mpr
      ⟨free, routed, by decide, .inr (.inl (by decide))⟩

end OutcomeSample

end Calculator
