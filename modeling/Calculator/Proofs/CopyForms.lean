import Calculator.Copy.Gateway
import Calculator.Proofs.Effect

/-!
# Copies in one piece

A copy that is answered with its destination is a function of the destination and the machine. Each way
to take what a copy brings has such a form, in which a change is made at once or not at all; it is
what the steps of the change come to.
-/

namespace Calculator

namespace NamedBlocks

variable {blocks : NamedBlocks} {id : BlockId}

theorem setStorage_same {block : Block} (stored : blocks.storage? id = some block) :
    blocks.setStorage id (some block) = blocks := by
  obtain ⟨named, listed, storage⟩ := Option.bind_eq_some_iff.mp stored
  have kept : { named with block := some block } = named := by rw [← storage]
  have all : blocks.blocks.modify id.place (fun named => { named with block := some block })
      = blocks.blocks := by
    apply List.ext_getElem?
    intro index
    rw [List.getElem?_modify]
    by_cases same : id.place = index
    · rw [← same, show blocks.blocks[id.place]? = some named from listed]
      simp [kept]
    · simp [same]
  rw [setStorage, all]

end NamedBlocks

/-- Writes bytes at `position`, or behind the data when it is negative; refused where the block would
have to grow and may not. -/
def Block.store (block : Block) (canGrow : Bool) (bytes : Bytes) (position : Int) :
    Except CopyError Block :=
  let start := if position < 0 then block.length else position.toNat
  match block.reserve (start + bytes.length) canGrow with
  | .fits => .ok (block.put start bytes)
  | .grown larger => .ok (larger.put start bytes)
  | .denied => .error .noRealloc

namespace Copy

/-- Replaces the block that a destination stands for. The change is told whether it may grow. -/
def changeBlock (destination : Value) (change : Block → Bool → Except CopyError Block) :
    CopyM Value := do
  let valueGrows := destination.protection.canGrow
  match destination.data with
  | .block block =>
      let changed ← change block valueGrows
      return { destination with data := .block changed }
  | .namedBlock id =>
      let machine ← get
      match machine.blocks.get? id with
      | none => throw .freedDestination
      | some named =>
          match named.block with
          | none => throw .freedDestination
          | some block =>
              let changed ← change block (valueGrows && named.protection.canGrow)
              set { machine with blocks := machine.blocks.setStorage id (some changed) }
              return destination
  | _ => throw (.badDestinationType destination.kind)

def intoBlock (destination : Value) (bytes : Bytes) (position : Int) : CopyM Value :=
  changeBlock destination fun block canGrow => block.store canGrow bytes position

def intoSlots (slots values : List Value) (position : Int) : Except CopyError (List Value) :=
  let start := position.toNat
  if slots.length < start + values.length then .error .destinationIndexTooLarge
  else
    .ok (slots.take start
      ++ List.zipWith (fun slot value => value.protect slot.protection) (slots.drop start) values
      ++ slots.drop (start + values.length))

def fileIntoBlock (id : FileId) (start : Nat) (count : Int) (destination : Value)
    (position : Int) : CopyM Value := do
  if id.isStandard then throw (.fileNotOpen id)
  let size ← onFiles id .seekFailed (Files.size id)
  if maxSourceFile < size then throw .sourceTooLarge
  let wanted := clamp size.toNat start count
  if wanted = 0 then return destination
  onFiles id .seekFailed (Files.setPosition id start)
  let bytes ← onFiles id .seekFailed (Files.readBytes id wanted)
  if bytes.length < wanted then throw .shortRead
  intoBlock destination bytes position

/-- The routes as functions of the destination. -/
def route (source : Value) (start : Nat) (count : Int) (destination : Value) (position : Int)
    (exclusive : Bool) : CopyM Value := do
  let blocks := (← get).blocks
  match destination.data with
  | .number payload =>
      let bytes ← bytesForBlock blocks source start count
      if bytes.isEmpty then return destination
      return { destination with data := .number (.fresh (intoNumber payload.content bytes position)) }
  | .text payload =>
      let bytes ← bytesForText blocks source start count
      if bytes.isEmpty then return destination
      return { destination with data := .text (intoText payload exclusive bytes position) }
  | .file id =>
      let bytes ← bytesForText blocks source start count
      if bytes.isEmpty then return destination
      intoFile id bytes position
      return destination
  | .matrix bounds slots =>
      let values ← elements blocks source start count
      if values.isEmpty then return destination
      let slots ← intoSlots slots values position
      return { destination with data := .matrix bounds slots }
  | .list items =>
      let values ← elements blocks source start count
      if values.isEmpty then return destination
      let items ← intoSlots items values position
      return { destination with data := .list items }
  | _ =>
      match source.data with
      | .file id => fileIntoBlock id start count destination position
      | _ =>
          let bytes ← bytesForBlock blocks source start count
          if bytes.isEmpty then return destination
          intoBlock destination bytes position

section Blocks

theorem makeRoom_run (length : Nat) (canGrow : Bool) (bench : Bench) :
    makeRoom length canGrow bench
      = match bench.block.reserve length canGrow with
        | .fits => (.ok (), bench)
        | .grown larger => (.ok (), { bench with block := larger })
        | .denied => (.error .noRealloc, bench) := by
  unfold makeRoom
  rw [Effect.get_bind_run]
  cases bench.block.reserve length canGrow <;> rfl

/-- A block is written to once there is room for all, so a refused write leaves it. -/
theorem writeBlock_run (canGrow : Bool) (bytes : Bytes) (position : Int) (bench : Bench) :
    writeBlock canGrow bytes position bench
      = match bench.block.store canGrow bytes position with
        | .ok block => (.ok (), { bench with block })
        | .error reason => (.error reason, bench) := by
  unfold writeBlock Block.store
  rw [Effect.get_bind_run]
  dsimp only
  generalize (if position < 0 then bench.block.length else position.toNat) = start
  have room := makeRoom_run (start + bytes.length) canGrow bench
  cases reserved : bench.block.reserve (start + bytes.length) canGrow with
  | fits =>
      rw [reserved] at room
      rw [Effect.bind_ok room]
      rfl
  | grown larger =>
      rw [reserved] at room
      rw [Effect.bind_ok room]
      rfl
  | denied =>
      rw [reserved] at room
      rw [Effect.bind_error room]

/-- The work comes to a change of the block, made at once or not at all, and leaves the files. -/
def Works (work : Bool → BenchM Unit) (change : Block → Bool → Except CopyError Block) : Prop :=
  ∀ canGrow bench, work canGrow bench
    = match change bench.block canGrow with
      | .ok block => (.ok (), { bench with block })
      | .error reason => (.error reason, bench)

variable {destination : Value} {machine : Machine}

theorem onBlock_run {work : Bool → BenchM Unit} {change : Block → Bool → Except CopyError Block}
    (works : Works work change) (destination : Value) :
    answering (onBlock work) destination = changeBlock destination change := by
  funext machine
  obtain ⟨data, protection⟩ := destination
  unfold answering onBlock changeBlock
  cases data with
  | block block =>
      dsimp only
      rw [works]
      cases change block protection.canGrow <;> rfl
  | namedBlock id =>
      dsimp only
      rw [Effect.get_bind_run]
      cases listed : machine.blocks.get? id with
      | none => rfl
      | some named =>
          cases stored : named.block with
          | none =>
              simp only [stored]
              rfl
          | some block =>
              have held : machine.blocks.storage? id = some block := by
                rw [NamedBlocks.storage?, listed, Option.bind_some, stored]
              simp only [stored]
              rw [works]
              cases change block (protection.canGrow && named.protection.canGrow) with
              | ok changed => rfl
              | error reason =>
                  simp only [NamedBlocks.setStorage_same held]
                  rfl
  | _ => rfl

theorem fillInto_works (byte : UInt8) (count start : Int) :
    Works
      (fun _ => modify fun bench =>
        { bench with block :=
            bench.block.fill byte start.toNat (clamp bench.block.length start.toNat count) })
      fun block _ => .ok (block.fill byte start.toNat (clamp block.length start.toNat count)) :=
  fun _ _ => rfl

end Blocks

section Slots

theorem putSlots_run (values front old : List Value) (inside : values.length ≤ old.length) :
    putSlots values front.length (front ++ old)
      = (.ok (), front ++ List.zipWith (fun slot value => value.protect slot.protection) old values
          ++ old.drop values.length) := by
  induction values generalizing front old with
  | nil =>
      rw [List.zipWith_nil_right, List.append_nil]
      rfl
  | cons value rest ih =>
      cases old with
      | nil => exact absurd inside (Nat.not_succ_le_zero _)
      | cons slot more =>
          have put : (front ++ slot :: more).modify front.length
                (fun slot => value.protect slot.protection)
              = (front ++ [value.protect slot.protection]) ++ more := by
            rw [List.modify_eq_take_cons_drop (by simp)]
            simp
          have step : putSlots (value :: rest) front.length (front ++ slot :: more)
              = putSlots rest (front.length + 1) ((front ++ slot :: more).modify front.length
                  (fun slot => value.protect slot.protection)) := rfl
          have later := ih (front ++ [value.protect slot.protection]) more
            (Nat.le_of_succ_le_succ inside)
          rw [List.length_append, List.length_singleton] at later
          rw [step, put, later, List.zipWith_cons_cons, List.append_assoc front]
          rfl

/-- Slots are counted before any of them is changed. -/
theorem writeSlots_run (slots values : List Value) (position : Int) :
    writeSlots values position slots
      = match intoSlots slots values position with
        | .ok slots => (.ok (), slots)
        | .error reason => (.error reason, slots) := by
  unfold writeSlots intoSlots
  rw [Effect.get_bind_run]
  dsimp only
  by_cases short : slots.length < position.toNat + values.length
  · rw [if_pos short, if_pos short]
    rfl
  · rw [if_neg short, if_neg short]
    have front : (slots.take position.toNat).length = position.toNat := by
      rw [List.length_take]
      omega
    have written := putSlots_run values (slots.take position.toNat) (slots.drop position.toNat)
      (by rw [List.length_drop]; omega)
    rw [front, List.take_append_drop, List.drop_drop] at written
    exact written

theorem onSlots_run (slots values : List Value) (rebuild : List Value → Data Value) (position : Int)
    (scene : Scene) :
    onSlots slots rebuild (writeSlots values position) scene
      = match intoSlots slots values position with
        | .ok slots => putData (rebuild slots) scene
        | .error reason => (.error reason, (putData (rebuild slots) scene).2) := by
  unfold onSlots
  rw [writeSlots_run]
  cases intoSlots slots values position <;> rfl

end Slots

end Copy

end Calculator
