import Calculator.Proofs.RegistryChronicle

/-!
# Frozen blocks

A named block that may not be reallocated keeps its capacity and its chunk and is not freed, and one
that may not be written to either keeps every byte. The protection is asked for in several places; here
it is read off the steps that an entry can take, and holds along every run.
-/

namespace Calculator

theorem Protection.canGrow_eq_false {all : Protection} (rigid : all.contains noRealloc = true) :
    all.canGrow = false := by
  rw [canGrow, rigid]
  rfl

namespace Block

variable {block : Block}

theorem Sound.store_inside {bytes : Bytes} {position : Int} {new : Block} (sound : block.Sound)
    (stored : block.store false bytes position = .ok new) :
    new.Sound ∧ new.capacity = block.capacity ∧ new.chunk = block.chunk := by
  obtain ⟨kept, received⟩ := sound.store stored
  refine ⟨kept, received.kept ?_, received.chunk⟩
  rw [Block.store] at stored
  generalize (if position < 0 then block.length else position.toNat) = start at stored ⊢
  by_contra more
  simp [Block.reserve, if_neg more] at stored

end Block

namespace NamedBlock

variable {named later after : NamedBlock} {block : Block}

def Sound (named : NamedBlock) : Prop :=
  ∀ block, named.block = some block → block.Sound

theorem Sound.change (sound : named.Sound) (change : named.Change after) : after.Sound := by
  intro block stored
  cases change with
  | checked step =>
      cases step with
      | resized held _ length chunk =>
          cases stored
          exact ((sound _ held).resize length chunk).1
      | revived _ length chunk =>
          cases stored
          exact ((Block.allocate_sound 0 chunk.toNat).resize (max length 0) chunk).1
      | freed _ => cases stored
      | guarded bits => exact sound block stored
      | written held _ _ made =>
          cases stored
          exact ((sound _ held).store made).1
      | filled held _ byte start count =>
          cases stored
          exact ((sound _ held).fill byte start count).1
  | called held call =>
      cases stored
      exact ((sound _ held).perform call).1
  | reguarded protection => exact sound block stored

/-- A later state of an entry that held `block`: it holds a block of that size, and the very block
where it could not be written to. -/
structure Frozen (named : NamedBlock) (block : Block) (later : NamedBlock) : Prop where
  label : later.label = named.label
  guarded : ∀ wanted, named.protection.contains wanted = true →
    later.protection.contains wanted = true
  stored : ∃ kept, later.block = some kept ∧ kept.Sound ∧ kept.capacity = block.capacity
    ∧ kept.chunk = block.chunk
    ∧ (named.protection.contains Protection.noCopyTo = true → kept = block)

theorem Frozen.refl (stored : named.block = some block) (sound : block.Sound) :
    named.Frozen block named :=
  ⟨rfl, fun _ had => had, block, stored, sound, rfl, rfl, fun _ => rfl⟩

theorem Frozen.step (frozen : named.Frozen block later)
    (rigid : named.protection.contains Protection.noRealloc = true) (step : later.Step after) :
    named.Frozen block after := by
  have fixed : later.protection.canGrow = false :=
    Protection.canGrow_eq_false (frozen.guarded _ rigid)
  obtain ⟨kept, stored, sound, capacity, chunk, same⟩ := frozen.stored
  -- A step that writes was let through, so the entry never had the other bit.
  have unbarred (writable : later.protection.contains Protection.noCopyTo = false) {changed : Block} :
      named.protection.contains Protection.noCopyTo = true → changed = block := by
    intro barred
    rw [frozen.guarded _ barred] at writable
    cases writable
  cases step with
  | resized _ loose | freed loose =>
      rw [fixed] at loose
      cases loose
  | revived freed =>
      rw [stored] at freed
      cases freed
  | guarded bits =>
      refine ⟨frozen.label, ?_, frozen.stored⟩
      intro wanted had
      exact Protection.contains_union bits (frozen.guarded wanted had)
  | @written held changed found writable canGrow loose bytes position made =>
      rw [stored] at found
      cases found
      have still : canGrow = false := by
        rw [← Bool.not_eq_true]
        intro grows
        rw [loose grows] at fixed
        cases fixed
      rw [still] at made
      obtain ⟨settled, room, pace⟩ := sound.store_inside made
      exact ⟨frozen.label, frozen.guarded, changed, rfl, settled, room.trans capacity,
        pace.trans chunk, unbarred writable⟩
  | @filled held found writable byte start count =>
      rw [stored] at found
      cases found
      obtain ⟨settled, shown⟩ := sound.fill byte start count
      have room : (kept.fill byte start count).capacity = kept.capacity :=
        congrArg Block.View.capacity shown
      exact ⟨frozen.label, frozen.guarded, _, rfl, settled, room.trans capacity, chunk,
        unbarred writable⟩

end NamedBlock

def NamedBlocks.Sound (registry : NamedBlocks) : Prop :=
  ∀ named ∈ registry.blocks, named.Sound

theorem NamedBlocks.Sound.moves {registry after : NamedBlocks} {asked : Option String}
    (sound : registry.Sound) (moves : registry.Moves NamedBlock.Change asked after) :
    after.Sound := by
  rcases moves with rfl | step
  · exact sound
  · cases step with
    | created _ _ length chunk =>
        intro named member
        rcases List.mem_append.mp member with old | new
        · exact sound named old
        · rw [List.mem_singleton.mp new]
          intro block stored
          cases stored
          exact Block.allocate_sound length chunk
    | changed listed change =>
        intro named member
        rcases List.mem_or_eq_of_mem_set member with old | rfl
        · exact sound named old
        · exact (sound _ (List.mem_of_getElem? listed)).change change

namespace Request

theorem performAll_sound (requests : List Request) {session : Session}
    (sound : session.machine.blocks.Sound) :
    (performAll requests session).machine.blocks.Sound := by
  induction requests generalizing session with
  | nil => exact sound
  | cons request rest ih => exact ih (sound.moves (perform_changes request session))

/-- Whatever goes through the checks leaves a frozen entry frozen. -/
theorem performAll_frozen {named : NamedBlock} {block : Block} {id : BlockId}
    (rigid : named.protection.contains Protection.noRealloc = true) (requests : List Request)
    (checked : ∀ request ∈ requests, request.isChecked = true) {session : Session}
    {now : NamedBlock} (listed : session.machine.blocks.get? id = some now)
    (frozen : named.Frozen block now) :
    ∃ later, (performAll requests session).machine.blocks.get? id = some later
      ∧ named.Frozen block later := by
  induction requests generalizing session now with
  | nil => exact ⟨now, listed, frozen⟩
  | cons request rest ih =>
      have moves := perform_moves request (checked request List.mem_cons_self) session
      obtain ⟨next, reached, same | step⟩ := moves.get? listed
      · rw [same] at reached
        exact ih (fun other member => checked other (List.mem_cons_of_mem _ member)) reached frozen
      · exact ih (fun other member => checked other (List.mem_cons_of_mem _ member)) reached
          (frozen.step rigid step)

end Request

/-- A live named block that may not be reallocated keeps handle, name, capacity and chunk along every
run of checked requests and is not freed; if it may not be copied to either, it is the same block. -/
theorem protected_block_stays_frozen (config : Config) (host : Host)
    (history requests : List Request) (checked : ∀ request ∈ requests, request.isChecked = true)
    {id : BlockId} {named : NamedBlock} {block : Block}
    (listed : (Request.performAll history (Session.start config host)).machine.blocks.get? id
      = some named)
    (live : named.block = some block)
    (rigid : named.protection.contains Protection.noRealloc = true) :
    let reached := Request.performAll requests
      (Request.performAll history (Session.start config host))
    ∃ later kept, reached.machine.blocks.get? id = some later ∧ later.block = some kept
      ∧ later.name = named.name ∧ later.id = id ∧ named.id = id
      ∧ reached.machine.blocks.find? named.name = some id
      ∧ kept.capacity = block.capacity ∧ kept.chunk = block.chunk
      ∧ (named.protection.contains Protection.noCopyTo = true →
          kept.length = block.length ∧ kept.data = block.data ∧ kept = block) := by
  have sound : block.Sound := by
    have all := Request.performAll_sound history
      (show (Session.start config host).machine.blocks.Sound from fun _ member => nomatch member)
    exact all named (List.mem_of_getElem? listed) block live
  obtain ⟨later, found, frozen⟩ :=
    Request.performAll_frozen rigid requests checked listed (.refl live sound)
  have coherent := Request.performAll_start_coherent history config host
  have later_coherent := Request.performAll_coherent requests coherent
  have bears : later.name = named.name := congrArg Prod.fst frozen.label
  obtain ⟨kept, stored, _, capacity, chunk, same⟩ := frozen.stored
  refine ⟨later, kept, found, stored, bears, later_coherent.get?_id found, coherent.get?_id listed,
    ?_, capacity, chunk, ?_⟩
  · rw [← bears]
    exact later_coherent.find?_name found
  · intro barred
    rw [same barred]
    exact ⟨rfl, rfl, rfl⟩

namespace Request

def sealing : List Request :=
  [.onRegistry (.create "n" 2 4), .onBlock (.named ⟨0⟩) (.write 0 [7, 8]),
   .onRegistry (.protect ⟨0⟩ (Protection.noRealloc.union Protection.noCopyTo))]

/-- Attempts at the block by handle, by name, by value and through the copies. -/
def attempts : List Request :=
  [.onRegistry (.resize ⟨0⟩ 9 (-1)), .onRegistry (.free ⟨0⟩), .onRegistry (.freeByName "n"),
   .builtin "blk" [Value.ofText [110], Value.ofInt 5], .builtin "blkfree" [Value.ofInt 0],
   .builtin "copy" [Value.ofText [1, 2, 3], Value.ofNamedBlock ⟨0⟩],
   .alter (.copy (Value.ofText [1, 2, 3]) 0 (-1) 0) (Value.ofNamedBlock ⟨0⟩) none,
   .alter (.fill 0 2 0) (Value.ofNamedBlock ⟨0⟩) none]

def sealedBlock : NamedBlock :=
  ⟨"n", ⟨0⟩, Protection.noRealloc.union Protection.noCopyTo,
    some ((Block.Call.write 0 [7, 8]).perform (Block.allocate 2 4))⟩

/-- None of them changes it. -/
theorem attempts_leave_block :
    let session := performAll sealing (Session.start {} (Host.initial none none))
    session.machine.blocks.get? ⟨0⟩ = some sealedBlock
      ∧ (∀ request ∈ attempts, request.isChecked = true)
      ∧ ∃ later kept, (performAll attempts session).machine.blocks.get? ⟨0⟩ = some later
          ∧ later.block = some kept ∧ kept.data = [7, 8] := by
  have listed : (performAll sealing (Session.start {} (Host.initial none none))).machine.blocks.get?
      ⟨0⟩ = some sealedBlock := rfl
  obtain ⟨later, kept, found, stored, _, _, _, _, _, _, same⟩ :=
    protected_block_stays_frozen {} (Host.initial none none) sealing attempts (by decide) listed rfl
      (by decide)
  refine ⟨listed, by decide, later, kept, found, stored, ?_⟩
  rw [(same (by decide)).2.1]
  decide

end Request

end Calculator
