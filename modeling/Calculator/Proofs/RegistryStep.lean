import Calculator.Proofs.BlockSession
import Mathlib.Data.List.Basic

/-!
# Steps of the registry

Whatever is asked of a session, its registry of named blocks takes one step at most. A step adds an
entry under a name that was not in use, or changes one entry. Which changes a call can make is said
once, with what the protection of the entry demands for each; all that is kept along a run follows from
this list.
-/

namespace Calculator

/-- The changes of one entry by calls that go through the checks. -/
inductive NamedBlock.Step (named : NamedBlock) : NamedBlock → Prop where
  | resized {block : Block} (stored : named.block = some block)
      (loose : named.protection.canGrow = true) (length chunk : Int) :
      Step named { named with block := some (block.resize length chunk) }
  | revived (freed : named.block = none) (length chunk : Int) :
      Step named
        { named with block := some ((Block.allocate 0 chunk.toNat).resize (max length 0) chunk) }
  | freed (loose : named.protection.canGrow = true) : Step named { named with block := none }
  | guarded (bits : Protection) :
      Step named { named with protection := named.protection.union bits }
  | written {block changed : Block} (stored : named.block = some block)
      (writable : named.protection.contains Protection.noCopyTo = false) {canGrow : Bool}
      (loose : canGrow = true → named.protection.canGrow = true) {bytes : Bytes} {position : Int}
      (made : block.store canGrow bytes position = .ok changed) :
      Step named { named with block := some changed }
  | filled {block : Block} (stored : named.block = some block)
      (writable : named.protection.contains Protection.noCopyTo = false) (byte : UInt8)
      (start count : Nat) : Step named { named with block := some (block.fill byte start count) }

/-- The changes of one entry by any call. Those that go through no check reach into the storage, or set
the protection. -/
inductive NamedBlock.Change (named : NamedBlock) : NamedBlock → Prop where
  | checked {after : NamedBlock} (step : named.Step after) : Change named after
  | called {block : Block} (stored : named.block = some block) (call : Block.Call) :
      Change named { named with block := some (call.perform block) }
  | reguarded (protection : Protection) : Change named { named with protection }

namespace NamedBlocks

/-- One step: a new entry under the name that was asked for, or a change of one entry. -/
inductive Step (change : NamedBlock → NamedBlock → Prop) (asked : Option String)
    (registry : NamedBlocks) : NamedBlocks → Prop where
  | created {name : String} (wanted : asked = some name) (unused : registry.find? name = none)
      (length chunk : Nat) :
      Step change asked registry (registry.add name (Block.allocate length chunk))
  | changed {id : BlockId} {named after : NamedBlock} (listed : registry.get? id = some named)
      (step : change named after) : Step change asked registry (registry.set id after)

/-- At most one step. -/
def Moves (change : NamedBlock → NamedBlock → Prop) (asked : Option String)
    (registry after : NamedBlocks) : Prop :=
  after = registry ∨ registry.Step change asked after

variable {change : NamedBlock → NamedBlock → Prop} {asked : Option String}
  {registry after : NamedBlocks}

theorem Moves.mono {wider : NamedBlock → NamedBlock → Prop} {any : Option String}
    (moves : registry.Moves change asked after)
    (implied : ∀ named later, change named later → wider named later)
    (known : ∀ name, asked = some name → any = some name) : registry.Moves wider any after := by
  rcases moves with same | step
  · exact .inl same
  · right
    cases step with
    | created wanted unused length chunk => exact .created (known _ wanted) unused length chunk
    | changed listed step => exact .changed listed (implied _ _ step)

theorem setStorage_eq_set {id : BlockId} {named : NamedBlock} (listed : registry.get? id = some named)
    (block : Option Block) : registry.setStorage id block = registry.set id { named with block } := by
  rw [get?] at listed
  rw [setStorage, set, List.modify_eq_set_getElem?, listed]
  rfl

theorem get?_set (registry : NamedBlocks) (id other : BlockId) (named : NamedBlock) :
    (registry.set id named).get? other
      = if other = id then (registry.get? id).map fun _ => named else registry.get? other := by
  simp only [NamedBlocks.get?, set, List.getElem?_set]
  by_cases own : other = id
  · subst own
    rw [if_pos rfl, if_pos rfl]
    by_cases inside : other.place < registry.blocks.length
    · rw [if_pos inside, List.getElem?_eq_getElem inside]
      rfl
    · rw [if_neg inside, List.getElem?_eq_none (Nat.le_of_not_lt inside)]
      rfl
  · have apart : id.place ≠ other.place := fun same => own (BlockId.place_inj.mp same).symm
    rw [if_neg apart, if_neg own]

theorem Moves.get? (moves : registry.Moves change asked after) {id : BlockId} {named : NamedBlock}
    (listed : registry.get? id = some named) :
    ∃ later, after.get? id = some later ∧ (later = named ∨ change named later) := by
  rcases moves with rfl | step
  · exact ⟨named, listed, .inl rfl⟩
  · cases step with
    | created wanted unused length chunk =>
        have inside := (List.getElem?_eq_some_iff.mp listed).1
        refine ⟨named, ?_, .inl rfl⟩
        rw [NamedBlocks.get?, add, List.getElem?_append_left inside]
        exact listed
    | @changed other own later found step =>
        rw [get?_set]
        by_cases same : id = other
        · subst same
          rw [listed] at found
          cases found
          exact ⟨later, by rw [if_pos rfl, listed]; rfl, .inr step⟩
        · exact ⟨named, by rwa [if_neg same], .inl rfl⟩

section Operations

theorem resize_moves {id : BlockId} {length chunk : Int}
    (resized : registry.resize id length chunk = .ok after) :
    registry.Moves NamedBlock.Step asked after := by
  dsimp only [NamedBlocks.resize] at resized
  split at resized
  · cases resized
  · rename_i named listed
    split at resized
    · rename_i loose
      split at resized
      · rename_i block stored
        cases resized
        rw [setStorage_eq_set listed]
        exact .inr (.changed listed (.resized stored loose length chunk))
      · rename_i freed
        cases resized
        rw [setStorage_eq_set listed]
        exact .inr (.changed listed (.revived freed length chunk))
    · split at resized
      · cases resized
        exact .inl rfl
      · cases resized

theorem free_moves {id : BlockId} (freed : registry.free id = .ok after) :
    registry.Moves NamedBlock.Step asked after := by
  dsimp only [NamedBlocks.free] at freed
  split at freed
  · cases freed
  · rename_i named listed
    split at freed
    · cases freed
      exact .inl rfl
    · split at freed
      · rename_i loose
        cases freed
        rw [setStorage_eq_set listed]
        exact .inr (.changed listed (.freed loose))
      · cases freed

theorem freeByName_moves {name : String} (freed : registry.freeByName name = .ok after) :
    registry.Moves NamedBlock.Step asked after := by
  dsimp only [NamedBlocks.freeByName] at freed
  split at freed
  · exact free_moves freed
  · cases freed

theorem protect_moves {id : BlockId} {bits : Protection}
    (guarded : registry.protect id bits = .ok after) :
    registry.Moves NamedBlock.Step asked after := by
  dsimp only [NamedBlocks.protect] at guarded
  split at guarded
  · cases guarded
  · rename_i named listed
    cases guarded
    exact .inr (.changed listed (.guarded bits))

theorem create_moves {name : String} {length chunk : Int} {answer : BlockId × NamedBlocks}
    (created : registry.create name length chunk = .ok answer) :
    registry.Moves NamedBlock.Step (some name) answer.2 := by
  dsimp only [NamedBlocks.create] at created
  split at created
  · cases created
  · rename_i unused
    split at created
    · cases created
    · split at created
      · cases created
      · cases created
        exact .inr (.created rfl (Option.not_isSome_iff_eq_none.mp unused) length.toNat chunk.toNat)

end Operations

end NamedBlocks

/-- Nothing differs but files, and named blocks by one step at most. -/
def Machine.Moves (asked : Option String) (before after : Machine) : Prop :=
  after = { before with blocks := after.blocks, files := after.files }
    ∧ before.blocks.Moves NamedBlock.Step asked after.blocks

namespace Machine

variable {asked : Option String} {origin machine : Machine}

theorem Moves.of_aside (machine : Machine) (aside : Copy.FilesAside origin machine) :
    origin.Moves asked machine := by
  rw [Copy.FilesAside] at aside
  rw [Moves, aside]
  exact ⟨rfl, .inl rfl⟩

theorem Moves.setBlocks (aside : Copy.FilesAside origin machine) {blocks : NamedBlocks}
    (moves : machine.blocks.Moves NamedBlock.Step asked blocks) :
    origin.Moves asked { machine with blocks } := by
  rw [Copy.FilesAside] at aside
  rw [aside] at moves ⊢
  exact ⟨rfl, moves⟩

theorem aside_files (machine : Machine) (files : Files) (aside : Copy.FilesAside origin machine) :
    Copy.FilesAside origin { machine with files } := by
  rw [Copy.FilesAside] at aside ⊢
  rw [aside]

end Machine

namespace Copy

open Effect (Turns Upholds)

variable {asked : Option String} {origin : Machine} {destination : Value}

theorem onFiles_keeps_aside {α : Type} (id : FileId) (wrap : FileError → CopyError)
    (operation : FileM α) :
    Upholds (FilesAside origin) (onFiles id wrap operation) fun _ => True :=
  fun machine aside => ⟨Machine.aside_files machine _ aside, fun _ _ => trivial⟩

/-- The block that the destination names, if any, may be written to. -/
def Writable (blocks : NamedBlocks) (destination : Value) : Prop :=
  ∀ id named, destination.data = .namedBlock id → blocks.get? id = some named →
    named.protection.contains Protection.noCopyTo = false

theorem writable_of_checked {blocks : NamedBlocks} {source : Value}
    (checked : checkProtection blocks source destination = .ok ()) : Writable blocks destination := by
  intro id named names listed
  rw [Bool.eq_false_iff]
  intro barred
  have target : destinationBlock? destination = some id := by rw [destinationBlock?, names]
  have refused : checkDestinationBlock blocks id = .error (.namedDestinationProtected id) := by
    simp only [checkDestinationBlock, listed, barred, if_true]
  simp only [checkProtection, target, refused] at checked
  -- Whichever check comes first, the copy is refused.
  split at checked
  · cases checked
  · split at checked
    · cases checked
    · cases origin : sourceBlock? source with
      | none =>
          rw [origin] at checked
          cases checked
      | some other =>
          simp only [origin] at checked
          cases readable : checkSourceBlock blocks other <;> rw [readable] at checked <;> cases checked

theorem answered_turns {α : Type} (answer : Except CopyError α) {shape : α → Value} :
    Turns (FilesAside origin) (origin.Moves asked)
      (liftM answer >>= fun result => pure (shape result) : CopyM Value) fun _ => True :=
  Turns.bind (Upholds.lift fun _ _ => trivial) Machine.Moves.of_aside fun _ _ =>
    Turns.pure Machine.Moves.of_aside trivial

theorem changeBlock_turns (writable : Writable origin.blocks destination)
    {change : Block → Bool → Except CopyError Block}
    (steps : ∀ (named : NamedBlock) (block changed : Block) (canGrow : Bool),
      named.block = some block → named.protection.contains Protection.noCopyTo = false →
      (canGrow = true → named.protection.canGrow = true) → change block canGrow = .ok changed →
      named.Step { named with block := some changed }) :
    Turns (FilesAside origin) (origin.Moves asked) (changeBlock destination change) fun _ => True := by
  unfold changeBlock
  dsimp only
  split
  · exact answered_turns _
  · rename_i id names
    intro machine aside
    have same : machine.blocks = origin.blocks := by rw [aside]
    rw [Effect.get_bind_run]
    cases listed : machine.blocks.get? id with
    | none => exact Turns.throw Machine.Moves.of_aside _ machine aside
    | some named =>
        cases stored : named.block with
        | none =>
            simp only [stored]
            exact Turns.throw Machine.Moves.of_aside _ machine aside
        | some block =>
            simp only [stored]
            cases made : change block (destination.protection.canGrow && named.protection.canGrow) with
            | error reason => exact Turns.throw Machine.Moves.of_aside reason machine aside
            | ok changed =>
                refine ⟨?_, fun _ _ => trivial⟩
                apply Machine.Moves.setBlocks aside
                rw [NamedBlocks.setStorage_eq_set listed]
                refine .inr (.changed listed (steps named block changed _ stored ?_ ?_ made))
                · exact writable id named names (same ▸ listed)
                · intro both
                  exact (Bool.and_eq_true_iff.mp both).2
  · exact Turns.throw Machine.Moves.of_aside _

theorem intoBlock_turns (writable : Writable origin.blocks destination) (bytes : Bytes)
    (position : Int) :
    Turns (FilesAside origin) (origin.Moves asked) (intoBlock destination bytes position)
      fun _ => True := by
  apply changeBlock_turns writable
  intro named block changed canGrow stored allowed loose made
  exact .written stored allowed loose made

theorem fileIntoBlock_turns (writable : Writable origin.blocks destination) (id : FileId)
    (start : Nat) (count position : Int) :
    Turns (FilesAside origin) (origin.Moves asked)
      (fileIntoBlock id start count destination position) fun _ => True := by
  unfold fileIntoBlock
  dsimp only
  split
  · exact Turns.throw_bind Machine.Moves.of_aside _ _
  apply Turns.bind (onFiles_keeps_aside _ _ _) Machine.Moves.of_aside
  intro size _
  split
  · exact Turns.throw_bind Machine.Moves.of_aside _ _
  split
  · exact Turns.pure Machine.Moves.of_aside trivial
  apply Turns.bind (onFiles_keeps_aside _ _ _) Machine.Moves.of_aside
  intro _ _
  apply Turns.bind (onFiles_keeps_aside _ _ _) Machine.Moves.of_aside
  intro bytes _
  split
  · exact Turns.throw_bind Machine.Moves.of_aside _ _
  · exact intoBlock_turns writable bytes position

theorem intoFile_keeps_aside (id : FileId) (bytes : Bytes) (position : Int) :
    Upholds (FilesAside origin) (intoFile id bytes position) fun _ => True := by
  have written : Upholds (FilesAside origin)
      (onFiles id .shortWrite (Files.write id bytes) >>= fun _ =>
        onFiles id .shortWrite (Files.flush id)) fun _ => True :=
    Upholds.bind_any (onFiles_keeps_aside _ _ _) fun _ => onFiles_keeps_aside _ _ _
  unfold intoFile
  dsimp only
  split
  · exact Upholds.throw_bind _ _
  split
  · exact Upholds.bind_any (onFiles_keeps_aside _ _ _) fun _ => written
  · exact written

theorem route_turns (writable : Writable origin.blocks destination) (source : Value) (start : Nat)
    (count position : Int) (exclusive : Bool) :
    Turns (FilesAside origin) (origin.Moves asked)
      (route source start count destination position exclusive) fun _ => True := by
  have gathered {α : Type} (answer : Except CopyError (List α)) {next : List α → CopyM Value}
      (continued : ∀ units, Turns (FilesAside origin) (origin.Moves asked) (next units)
        fun _ => True) :
      Turns (FilesAside origin) (origin.Moves asked) (liftM answer >>= fun units =>
        if units.isEmpty then pure destination else next units) fun _ => True := by
    apply Turns.bind (Upholds.lift fun _ _ => trivial) Machine.Moves.of_aside
    intro units _
    exact Turns.ite (Turns.pure Machine.Moves.of_aside trivial) (continued units)
  unfold route
  apply Turns.get_bind
  intro machine
  dsimp only
  split
  · exact gathered _ fun _ => Turns.pure Machine.Moves.of_aside trivial
  · exact gathered _ fun _ => Turns.pure Machine.Moves.of_aside trivial
  · rename_i id _
    apply gathered
    intro bytes
    exact Turns.bind (intoFile_keeps_aside id bytes position) Machine.Moves.of_aside fun _ _ =>
      Turns.pure Machine.Moves.of_aside trivial
  · apply gathered
    intro values
    exact answered_turns _
  · apply gathered
    intro values
    exact answered_turns _
  · split
    · exact fileIntoBlock_turns writable _ start count position
    · exact gathered _ fun bytes => intoBlock_turns writable bytes position

/-- A copy moves the registry by what it writes into a named block, which may be written to. -/
theorem copy_turns (source : Value) (start count : Int) (destination : Value) (position : Int)
    (exclusive : Bool) :
    Turns (FilesAside origin) (origin.Moves asked)
      (copy source start count destination position exclusive) fun _ => True := by
  intro machine aside
  rw [copy_run]
  split
  · rename_i admitted
    have writable := writable_of_checked (permit_checks.mp admitted).1
    have same : machine.blocks = origin.blocks := by rw [aside]
    rw [same] at writable
    exact route_turns writable source start.toNat count position exclusive machine aside
  · exact Turns.throw Machine.Moves.of_aside _ machine aside

theorem fill_turns (destination : Value) (byte : UInt8) (count start : Int) :
    Turns (FilesAside origin) (origin.Moves asked) (fill destination byte count start)
      fun _ => True := by
  intro machine aside
  rw [fill_eq]
  rw [Effect.get_bind_run]
  cases checked : checkProtection machine.blocks Value.null destination with
  | error reason => exact Turns.throw Machine.Moves.of_aside reason machine aside
  | ok _ =>
      have writable := writable_of_checked checked
      have same : machine.blocks = origin.blocks := by rw [aside]
      rw [same] at writable
      rw [Effect.lift_ok_bind_run]
      refine Turns.ite (Turns.throw_bind Machine.Moves.of_aside _ _)
        (changeBlock_turns writable ?_) machine aside
      intro named block changed canGrow stored allowed _ made
      cases made
      exact .filled stored allowed byte start.toNat _

end Copy

namespace Builtin

open Effect (Turns Upholds)

variable {asked : Option String} {origin : Machine}

theorem onBlocks_turns {operation : NamedBlocks → Except BlockError NamedBlocks}
    (moves : ∀ registry after, operation registry = .ok after →
      registry.Moves NamedBlock.Step asked after) :
    Turns (Copy.FilesAside origin) (origin.Moves asked) (onBlocks operation) fun _ => True := by
  intro machine aside
  unfold onBlocks
  rw [Effect.get_bind_run]
  cases made : operation machine.blocks with
  | ok blocks => exact ⟨Machine.Moves.setBlocks aside (moves _ _ made), fun _ _ => trivial⟩
  | error reason => exact Turns.throw Machine.Moves.of_aside _ machine aside

theorem namedBlock_turns (name : String) (length chunk : Int) :
    Turns (Copy.FilesAside origin) (origin.Moves (some name)) (namedBlock name length chunk)
      fun _ => True := by
  intro machine aside
  unfold namedBlock
  rw [Effect.get_bind_run]
  cases machine.blocks.find? name with
  | some id =>
      have resized : Turns (Copy.FilesAside origin) (origin.Moves (some name))
          (onBlocks fun blocks => blocks.resize id length chunk) fun _ => True :=
        onBlocks_turns fun _ _ => NamedBlocks.resize_moves
      exact Turns.bind_pure resized (fun _ _ => trivial) machine aside
  | none =>
      dsimp only
      generalize (if chunk ≤ 0 then Word.signed64 machine.config.blockChunk else chunk) = settled
      cases created : machine.blocks.create name (max length 0) settled with
      | ok answer =>
          exact ⟨Machine.Moves.setBlocks aside (NamedBlocks.create_moves created),
            fun _ _ => trivial⟩
      | error reason => exact Turns.throw Machine.Moves.of_aside _ machine aside

def askedName? : List Value → Option String
  | ⟨.text payload, _⟩ :: _ => some (Text.decode payload.content)
  | _ => none

theorem blk_turns (arguments : List Value) :
    Turns (Copy.FilesAside origin) (origin.Moves (askedName? arguments)) (blk arguments)
      fun _ => True := by
  have anonymous : Turns (Copy.FilesAside origin) (origin.Moves (askedName? arguments))
      (blk.anonymous arguments) fun _ => True := by
    apply Turns.bind (blockSettings_upholds arguments) Machine.Moves.of_aside
    intro settings _
    apply Turns.get_bind
    intro machine
    exact Turns.pure Machine.Moves.of_aside trivial
  unfold blk
  split
  · rename_i target rest
    refine Turns.ite ?_ anonymous
    apply Turns.bind (blockSettings_upholds rest) Machine.Moves.of_aside
    rintro ⟨length, chunk⟩ _
    dsimp only
    cases target with
    | mk data protection =>
        cases data with
        | text payload => exact Turns.bind_pure (namedBlock_turns _ length chunk) fun _ _ => trivial
        | namedBlock id =>
            exact Turns.bind_pure (onBlocks_turns fun _ _ => NamedBlocks.resize_moves)
              fun _ _ => trivial
        | block block => exact Turns.pure Machine.Moves.of_aside trivial
        | _ => exact Turns.throw Machine.Moves.of_aside _
  · exact anonymous

theorem blkfree_turns (arguments : List Value) :
    Turns (Copy.FilesAside origin) (origin.Moves asked) (blkfree arguments) fun _ => True := by
  unfold blkfree
  split
  · exact Turns.bind_pure (onBlocks_turns fun _ _ => NamedBlocks.free_moves) fun _ _ => trivial
  · exact Turns.bind_pure (onBlocks_turns fun _ _ => NamedBlocks.freeByName_moves) fun _ _ => trivial
  · apply Turns.bind (bounded_upholds _ _ _ _) Machine.Moves.of_aside
    intro number _
    exact Turns.bind_pure (onBlocks_turns fun _ _ => NamedBlocks.free_moves) fun _ _ => trivial
  · exact Turns.throw_bind Machine.Moves.of_aside _ _

theorem blocks_turns (arguments : List Value) :
    Turns (Copy.FilesAside origin) (origin.Moves asked) (blocks arguments) fun _ => True := by
  apply Turns.get_bind
  intro machine
  dsimp only
  split
  · exact Turns.pure Machine.Moves.of_aside trivial
  · apply Turns.bind (wordOr_upholds _ _) Machine.Moves.of_aside
    intro number _
    exact Turns.ite (Turns.throw_bind Machine.Moves.of_aside _ _)
      (Turns.pure Machine.Moves.of_aside trivial)

theorem copyValues_turns (source destination : Value) (start count position : Int) :
    Turns (Copy.FilesAside origin) (origin.Moves asked)
      (copyValues source destination start count position) fun _ => True :=
  fun machine aside =>
    ⟨(Copy.copy_turns source start count destination position false machine aside).1,
      fun _ _ => trivial⟩

theorem copy_turns (arguments : List Value) :
    Turns (Copy.FilesAside origin) (origin.Moves asked) (copy arguments) fun _ => True := by
  exact Turns.bind (bounded_upholds _ _ _ _) Machine.Moves.of_aside fun _ _ =>
    Turns.bind (bounded_upholds _ _ _ _) Machine.Moves.of_aside fun _ _ =>
      Turns.bind (bounded_upholds _ _ _ _) Machine.Moves.of_aside fun _ _ => copyValues_turns _ _ _ _ _

theorem blkcpy_turns (arguments : List Value) :
    Turns (Copy.FilesAside origin) (origin.Moves asked) (blkcpy arguments) fun _ => True := by
  exact Turns.bind (bounded_upholds _ _ _ _) Machine.Moves.of_aside fun _ _ =>
    Turns.bind (bounded_upholds _ _ _ _) Machine.Moves.of_aside fun _ _ =>
      Turns.bind (bounded_upholds _ _ _ _) Machine.Moves.of_aside fun _ _ => copyValues_turns _ _ _ _ _

end Builtin

def Registry.askedName? (name : String) (arguments : List Value) : Option String :=
  if name = "blk" then Builtin.askedName? arguments else none

theorem Registry.standard_call_moves (name : String) (arguments : List Value) (origin : Machine) :
    Effect.Turns (Copy.FilesAside origin) (origin.Moves (askedName? name arguments))
      (standard.call name arguments) fun _ => True := by
  refine standard_call_turns Machine.Moves.of_aside (fun _ _ => trivial) Machine.aside_files name ?_
    (Builtin.blkfree_turns arguments) (Builtin.blocks_turns arguments)
    (Builtin.copy_turns arguments) (Builtin.blkcpy_turns arguments)
  intro own
  rw [askedName?, if_pos own]
  exact Builtin.blk_turns arguments

theorem Copy.Change.answered_moves (change : Change) (exclusive : Bool) (destination : Value)
    (machine : Machine) :
    machine.Moves none (change.answered exclusive destination machine).2 := by
  cases change with
  | copy source start count position =>
      exact (copy_turns source start count destination position exclusive machine rfl).1
  | fill byte count start => exact (fill_turns destination byte count start machine rfl).1

namespace Request

/-- The request goes through the checks. Others reach into a named block, or take its protection
away. -/
def isChecked : Request → Bool
  | onBlock (.named _) _ => false
  | onRegistry (.setProtection _ _) => false
  | _ => true

/-- The name under which a request makes a block, if there is none. -/
def askedName? : Request → Option String
  | builtin name arguments => Registry.askedName? name arguments
  | onRegistry (.create name _ _) => some name
  | _ => none

theorem perform_moves (request : Request) (checked : request.isChecked = true) (session : Session) :
    session.machine.blocks.Moves NamedBlock.Step request.askedName?
      (request.perform session).2.machine.blocks := by
  have still : session.machine.blocks.Moves NamedBlock.Step request.askedName?
      session.machine.blocks := .inl rfl
  cases request with
  | assign name value => exact still
  | erase name => exact still
  | builtin name arguments =>
      exact (Registry.standard_call_moves name arguments session.machine session.machine rfl).1.2
  | alter change destination holder =>
      have moved := (change.answered_moves (session.isExclusive destination holder.isSome) destination
        session.machine).2
      rw [Copy.Change.answered_run] at moved
      rw [← Session.alter_machine] at moved
      exact moved
  | onBlock place call =>
      cases place with
      | named id => cases checked
      | stored name =>
          dsimp only [perform]
          split
          · dsimp only [Session.setBlock]
            split <;> exact still
          · exact still
  | onRegistry call =>
      dsimp only [perform]
      split
      · rename_i blocks made
        cases call with
        | create name length chunk =>
            dsimp only [RegistryCall.perform] at made
            cases created : session.machine.blocks.create name length chunk with
            | error reason =>
                rw [created] at made
                cases made
            | ok answer =>
                rw [created] at made
                cases made
                exact NamedBlocks.create_moves created
        | resize id length chunk => exact NamedBlocks.resize_moves made
        | free id => exact NamedBlocks.free_moves made
        | freeByName name => exact NamedBlocks.freeByName_moves made
        | protect id bits => exact NamedBlocks.protect_moves made
        | setProtection id protection => cases checked
      · exact still
  | elsewhere files constants literals => exact still

theorem perform_changes (request : Request) (session : Session) :
    session.machine.blocks.Moves NamedBlock.Change request.askedName?
      (request.perform session).2.machine.blocks := by
  cases checked : request.isChecked with
  | true =>
      exact (perform_moves request checked session).mono (fun _ _ => .checked) fun _ same => same
  | false =>
      cases request with
      | onBlock place call =>
          cases place with
          | stored name => cases checked
          | named id =>
              dsimp only [perform]
              split
              · rename_i block held
                obtain ⟨named, listed, stored⟩ := Option.bind_eq_some_iff.mp held
                dsimp only [Session.setBlock]
                rw [NamedBlocks.setStorage_eq_set listed]
                exact .inr (.changed listed (.called stored call))
              · exact .inl rfl
      | onRegistry call =>
          cases call with
          | setProtection id protection =>
              dsimp only [perform, RegistryCall.perform]
              cases listed : session.machine.blocks.get? id with
              | none => exact .inl rfl
              | some named => exact .inr (.changed listed (.reguarded protection))
          | create | resize | free | freeByName | protect => cases checked
      | assign | erase | builtin | alter | elsewhere => cases checked

def performAll (requests : List Request) (session : Session) : Session :=
  requests.foldl (fun session request => (request.perform session).2) session

end Request

end Calculator
