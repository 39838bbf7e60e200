import Calculator.Proofs.CopyForms
import Calculator.Proofs.CopyPermission

/-!
# The gateway step by step

A copy is admitted before anything is read, and what it is admitted by depends on the named blocks
only. A destination block is changed last: either it is replaced or nothing is.
-/

namespace Calculator

namespace NamedBlocks

theorem get?_setStorage_self (registry : NamedBlocks) (id : BlockId) (block : Option Block) :
    (registry.setStorage id block).get? id
      = (registry.get? id).map fun named => { named with block } := by
  rw [get?, setStorage, List.getElem?_modify_eq]
  rfl

theorem get?_setStorage_ne (registry : NamedBlocks) {id other : BlockId} (differs : other ≠ id)
    (block : Option Block) : (registry.setStorage id block).get? other = registry.get? other := by
  have apart : id.place ≠ other.place := fun same => differs (BlockId.place_inj.mp same).symm
  rw [get?, setStorage, List.getElem?_modify_ne _ _ apart]
  rfl

end NamedBlocks

namespace Copy

variable {source destination : Value} {machine : Machine}

theorem blockOf_ok {blocks : NamedBlocks} {value : Value} {block : Block}
    (held : blockOf blocks value = .ok block) :
    value.data = .block block
      ∨ ∃ id named, value.data = .namedBlock id ∧ blocks.get? id = some named
        ∧ named.block = some block := by
  unfold blockOf at held
  split at held
  · cases held
    exact .inl ‹_›
  · rename_i id named
    cases stored : blocks.storage? id with
    | none => rw [stored] at held; cases held
    | some found =>
        rw [stored] at held
        cases held
        obtain ⟨present, listed, storage⟩ := Option.bind_eq_some_iff.mp stored
        exact .inr ⟨id, present, named, listed, storage⟩
  · cases held

theorem blockOf_isBlock {blocks : NamedBlocks} {value : Value} {block : Block}
    (held : blockOf blocks value = .ok block) : isBlock value.kind = true := by
  rw [Value.kind]
  rcases blockOf_ok held with direct | ⟨id, named, names, _, _⟩
  · rw [direct]
    rfl
  · rw [names]
    rfl

theorem isBlock_shape {value : Value} (block : isBlock value.kind = true) :
    (∃ held, value.data = .block held) ∨ ∃ id, value.data = .namedBlock id := by
  rw [Value.kind] at block
  cases shape : value.data with
  | block held => exact .inl ⟨held, rfl⟩
  | namedBlock id => exact .inr ⟨id, rfl⟩
  | _ => simp [shape, Data.kind, isBlock] at block

/-- The destination and the machine once the block of the destination is replaced. -/
def replaced (machine : Machine) (destination : Value) (block : Block) : Value × Machine :=
  match destination.data with
  | .namedBlock id =>
      (destination, { machine with blocks := machine.blocks.setStorage id (some block) })
  | _ => ({ destination with data := .block block }, machine)

theorem blockOf_replaced {old : Block} (held : blockOf machine.blocks destination = .ok old)
    (new : Block) :
    blockOf (replaced machine destination new).2.blocks (replaced machine destination new).1
      = .ok new := by
  unfold replaced
  rcases blockOf_ok held with direct | ⟨id, named, names, listed, _⟩
  · rw [direct]
    rfl
  · have stored := NamedBlocks.get?_setStorage_self machine.blocks id (some new)
    rw [names]
    simp only [blockOf, names, NamedBlocks.storage?, stored, listed, Option.map_some,
      Option.bind_some]

/-- Neither the destination nor the block that it names is protected against growth. -/
def mayGrow (blocks : NamedBlocks) (destination : Value) : Bool :=
  destination.protection.canGrow
    && match destinationBlock? destination with
      | some id => (blocks.get? id).all fun named => named.protection.canGrow
      | none => true

theorem changeBlock_run {block : Block} (held : blockOf machine.blocks destination = .ok block)
    (change : Block → Bool → Except CopyError Block) :
    changeBlock destination change machine
      = match change block (mayGrow machine.blocks destination) with
        | .ok changed => (.ok (replaced machine destination changed).1,
            (replaced machine destination changed).2)
        | .error error => (.error error, machine) := by
  unfold changeBlock mayGrow replaced destinationBlock?
  rcases blockOf_ok held with direct | ⟨id, named, named?, listed, storage⟩
  · rw [direct]
    simp only [Bool.and_true]
    cases change block destination.protection.canGrow <;> rfl
  · rw [named?]
    simp only [Effect.get_bind_run, listed, storage, Option.all_some]
    cases change block (destination.protection.canGrow && named.protection.canGrow) <;> rfl

/-- The answer to a change of a destination that stands for no block. -/
def noBlock (destination : Value) : CopyError :=
  match destination.data with
  | .namedBlock _ => .freedDestination
  | _ => .badDestinationType destination.kind

theorem changeBlock_missing {reason : CopyError}
    (missing : blockOf machine.blocks destination = .error reason)
    (change : Block → Bool → Except CopyError Block) :
    changeBlock destination change machine = (.error (noBlock destination), machine) := by
  unfold changeBlock noBlock
  cases shape : destination.data with
  | block block => simp [blockOf, shape] at missing
  | namedBlock id =>
      cases listed : machine.blocks.get? id with
      | none =>
          simp only [Effect.get_bind_run, listed]
          rfl
      | some named =>
          cases storage : named.block with
          | none =>
              simp only [Effect.get_bind_run, listed, storage]
              rfl
          | some block =>
              simp [blockOf, shape, NamedBlocks.storage?, listed, storage] at missing
  | _ => rfl

theorem replaced_self {block : Block} (held : blockOf machine.blocks destination = .ok block) :
    replaced machine destination block = (destination, machine) := by
  unfold replaced
  rcases blockOf_ok held with direct | ⟨id, named, names, listed, stored⟩
  · rw [direct]
    obtain ⟨data, protection⟩ := destination
    cases direct
    rfl
  · have storage : machine.blocks.storage? id = some block := by
      rw [NamedBlocks.storage?, listed, Option.bind_some, stored]
    rw [names]
    dsimp only
    rw [NamedBlocks.setStorage_same storage]

/-- The answer and the machine once a block that was worked on is put back, whatever came of the work. -/
def putBack (machine : Machine) (destination : Value) (ran : Except CopyError Unit × Bench) :
    Except CopyError Value × Machine :=
  let after := replaced { machine with files := ran.2.files } destination ran.2.block
  (ran.1.map fun _ => after.1, after.2)

theorem onBlock_held {block : Block} (held : blockOf machine.blocks destination = .ok block)
    (work : Bool → BenchM Unit) :
    answering (onBlock work) destination machine
      = putBack machine destination
        (work (mayGrow machine.blocks destination) { block, files := machine.files }) := by
  unfold answering onBlock putBack mayGrow replaced destinationBlock?
  rcases blockOf_ok held with direct | ⟨id, named, names, listed, stored⟩
  · simp only [direct, Bool.and_true]
    rfl
  · simp only [names, listed, stored, Option.all_some]
    rfl

/-- Work on the block of a destination comes to what a copy answers. -/
def Follows (destination : Value) (canGrow : Bool) (work : BenchM Unit) (copying : CopyM Value) :
    Prop :=
  ∀ machine block, blockOf machine.blocks destination = .ok block →
    mayGrow machine.blocks destination = canGrow →
    putBack machine destination (work { block, files := machine.files }) = copying machine

namespace Follows

variable {canGrow : Bool}

theorem pure : Follows destination canGrow (Pure.pure ()) (Pure.pure destination) := by
  intro machine block held _
  exact congrArg (fun after : Value × Machine => (Except.ok after.1, after.2)) (replaced_self held)

theorem refused {machine : Machine} {block : Block}
    (held : blockOf machine.blocks destination = .ok block) (reason : CopyError) (files : Files) :
    putBack machine destination (.error reason, { block, files })
      = (.error reason, { machine with files }) :=
  congrArg (fun after : Value × Machine => ((Except.error reason : Except CopyError Value), after.2))
    (@replaced_self destination { machine with files } block held)

theorem throw_bind (reason : CopyError) {next : Unit → BenchM Unit} {copying : Unit → CopyM Value} :
    Follows destination canGrow (throw reason >>= next) (throw reason >>= copying) :=
  fun machine _ held _ => refused held reason machine.files

theorem file_bind {α : Type} (id : FileId) (wrap : FileError → CopyError) (operation : FileM α)
    {next : α → BenchM Unit} {copying : α → CopyM Value}
    (continued : ∀ result, Follows destination canGrow (next result) (copying result)) :
    Follows destination canGrow (besideBlock id wrap operation >>= next)
      (onFiles id wrap operation >>= copying) := by
  intro machine block held grows
  rcases ran : operation machine.files with ⟨result, files⟩
  have beside : besideBlock id wrap operation { block, files := machine.files }
      = (result.mapError (fileFault id wrap), { block, files }) := by
    rw [besideBlock, ran]
  have alone : onFiles id wrap operation machine
      = (result.mapError (fileFault id wrap), { machine with files }) := by
    rw [onFiles, ran]
  cases result with
  | ok result =>
      rw [Effect.bind_ok beside, Effect.bind_ok alone]
      exact continued result { machine with files } block held grows
  | error reason =>
      rw [Effect.bind_error beside, Effect.bind_error alone]
      exact refused held _ files

theorem write (bytes : Bytes) (position : Int) :
    Follows destination canGrow (writeBlock canGrow bytes position)
      (intoBlock destination bytes position) := by
  rintro machine block held rfl
  rw [writeBlock_run, intoBlock, changeBlock_run held]
  cases block.store (mayGrow machine.blocks destination) bytes position with
  | ok changed => rfl
  | error reason => exact refused held reason machine.files

theorem readFileInto (id : FileId) (start : Nat) (count position : Int) :
    Follows destination canGrow (readFileInto id start count position canGrow)
      (fileIntoBlock id start count destination position) := by
  unfold Copy.readFileInto fileIntoBlock
  dsimp only
  split
  · exact throw_bind _
  apply file_bind
  intro size
  split
  · exact throw_bind _
  split
  · exact pure
  apply file_bind
  intro _
  apply file_bind
  intro bytes
  split
  · exact throw_bind _
  · exact write bytes position

end Follows

theorem answering_gathered {α : Type} (answer : Except CopyError (List α))
    {next : List α → SceneM Unit} {copying : List α → CopyM Value}
    (continued : ∀ units, answering (next units) destination machine = copying units machine) :
    answering (liftM answer >>= fun units => if units.isEmpty then Pure.pure () else next units)
        destination machine
      = (liftM answer >>= fun units =>
          if units.isEmpty then Pure.pure destination else copying units : CopyM Value) machine := by
  cases answer with
  | error reason => rfl
  | ok units =>
      have run : answering (liftM (Except.ok units : Except CopyError (List α)) >>= fun units =>
            if units.isEmpty then Pure.pure () else next units) destination machine
          = answering (if units.isEmpty then Pure.pure () else next units) destination machine := rfl
      rw [run, Effect.lift_ok_bind_run]
      by_cases empty : units.isEmpty = true
      · rw [if_pos empty, if_pos empty]
        rfl
      · rw [if_neg empty, if_neg empty]
        exact continued units

theorem answering_onMachine (work : CopyM Unit) (destination : Value) :
    answering (onMachine work) destination = work >>= fun _ => Pure.pure destination := by
  funext machine
  rcases ran : work machine with ⟨result, after⟩
  have left : answering (onMachine work) destination machine
      = (result.map fun _ => destination, after) := by
    rw [answering, onMachine, ran]
  rw [left]
  cases result with
  | ok _ => rw [Effect.bind_ok ran]; rfl
  | error reason => rw [Effect.bind_error ran]; rfl

theorem answering_onSlots (slots values : List Value) (rebuild : List Value → Data Value)
    (position : Int) (destination : Value) :
    answering (onSlots slots rebuild (writeSlots values position)) destination
      = (do
          let slots ← intoSlots slots values position
          return { destination with data := rebuild slots } : CopyM Value) := by
  funext machine
  rw [answering, onSlots_run]
  cases intoSlots slots values position <;> rfl

/-- A route changes its destination as a function does, if a block that it may go to is there. -/
theorem routeInto_run (routed : isRoute source.kind destination.kind = true)
    (present : isBlock destination.kind = true →
      ∃ block, blockOf machine.blocks destination = .ok block)
    (start : Nat) (count position : Int) (exclusive : Bool) :
    answering (routeInto source start count position exclusive) destination machine
      = route source start count destination position exclusive machine := by
  have read (next : Scene → SceneM Unit) :
      answering (get >>= next) destination machine
        = answering (next { destination, machine }) destination machine := rfl
  unfold routeInto route
  rw [read, Effect.get_bind_run]
  obtain ⟨data, protection⟩ := destination
  cases data with
  | number payload => exact answering_gathered _ fun _ => rfl
  | text payload => exact answering_gathered _ fun _ => rfl
  | file id =>
      apply answering_gathered
      intro bytes
      rw [answering_onMachine]
  | matrix bounds slots =>
      apply answering_gathered
      intro values
      rw [answering_onSlots]
  | list items =>
      apply answering_gathered
      intro values
      rw [answering_onSlots]
  | block _ | namedBlock _ =>
      obtain ⟨held, stored⟩ := present rfl
      dsimp only
      cases source.data with
      | file id =>
          rw [onBlock_held stored]
          exact Follows.readFileInto id start count position machine held stored rfl
      | _ =>
          apply answering_gathered
          intro bytes
          rw [onBlock_held stored]
          exact Follows.write bytes position machine held stored rfl
  | _ => cases routed

theorem blockOf_of_permit {start : Int}
    (admitted : permit machine.blocks source start destination = .ok ())
    (block : isBlock destination.kind = true) :
    ∃ held, blockOf machine.blocks destination = .ok held := by
  have free := (permit_ok_iff.mp admitted).1
  rcases isBlock_shape block with ⟨held, shape⟩ | ⟨id, shape⟩
  · exact ⟨held, by rw [blockOf, shape]⟩
  · have names : destinationBlock? destination = some id := by rw [destinationBlock?, shape]
    obtain ⟨named, listed, _, stored⟩ := free.writable id names
    obtain ⟨held, storage⟩ := Option.isSome_iff_exists.mp stored
    refine ⟨held, ?_⟩
    simp only [blockOf, shape, NamedBlocks.storage?, listed, Option.bind_some, storage]

theorem copy_run (source : Value) (start count : Int) (destination : Value) (position : Int)
    (exclusive : Bool) (machine : Machine) :
    copy source start count destination position exclusive machine
      = match permit machine.blocks source start destination with
        | .ok _ => route source start.toNat count destination position exclusive machine
        | .error error => (.error error, machine) := by
  have steps : copy source start count destination position exclusive machine
      = match permit machine.blocks source start destination with
        | .ok _ => answering (routeInto source start.toNat count position exclusive) destination machine
        | .error error => (.error error, machine) := by
    unfold copy permit answering copyInto
    rw [Effect.get_bind_run]
    dsimp only
    cases checkProtection machine.blocks source destination with
    | error reason => rfl
    | ok _ =>
        cases checkKinds source.kind destination.kind with
        | error reason => rfl
        | ok _ =>
            by_cases negative : start < 0
            · rw [if_pos negative, if_pos negative]
              rfl
            · rw [if_neg negative, if_neg negative]
              cases isRoute source.kind destination.kind <;> rfl
  rw [steps]
  cases admitted : permit machine.blocks source start destination with
  | error reason => rfl
  | ok _ =>
      have routed := (permit_checks.mp admitted).2.2.2
      exact routeInto_run routed (blockOf_of_permit admitted) start.toNat count position exclusive

theorem fill_eq (destination : Value) (byte : UInt8) (count start : Int) :
    fill destination byte count start = (do
      checkProtection (← get).blocks Value.null destination
      if start < 0 then throw .negativeIndex
      changeBlock destination fun block _ =>
        .ok (block.fill byte start.toNat (clamp block.length start.toNat count))) := by
  funext machine
  unfold fill answering fillInto
  rw [Effect.get_bind_run, Effect.get_bind_run]
  dsimp only
  cases checkProtection machine.blocks Value.null destination with
  | error reason => rfl
  | ok _ =>
      by_cases negative : start < 0
      · rw [if_pos negative, if_pos negative]
        rfl
      · rw [if_neg negative, if_neg negative]
        exact congrFun (onBlock_run (fillInto_works byte count start) destination) machine

/-- A copy that is answered was admitted, and is what its route brings. -/
theorem copy_answered {start count position : Int} {exclusive : Bool} {after : Value}
    (answered : (copy source start count destination position exclusive machine).1 = .ok after) :
    permit machine.blocks source start destination = .ok ()
      ∧ copy source start count destination position exclusive machine
        = route source start.toNat count destination position exclusive machine := by
  rw [copy_run] at answered ⊢
  cases admitted : permit machine.blocks source start destination with
  | error reason =>
      rw [admitted] at answered
      cases answered
  | ok _ => exact ⟨rfl, rfl⟩

theorem route_into_block (block : isBlock destination.kind = true) (other : source.kind ≠ .file)
    (start : Nat) (count position : Int) (exclusive : Bool) (machine : Machine) :
    route source start count destination position exclusive machine
      = match bytesForBlock machine.blocks source start count with
        | .ok bytes =>
            if bytes.isEmpty then (.ok destination, machine)
            else intoBlock destination bytes position machine
        | .error error => (.error error, machine) := by
  have step : route source start count destination position exclusive machine
      = (liftM (bytesForBlock machine.blocks source start count) >>= fun bytes =>
          if bytes.isEmpty then pure destination else intoBlock destination bytes position : CopyM Value)
          machine := by
    unfold route
    rw [Effect.get_bind_run]
    rcases isBlock_shape block with ⟨target, same⟩ | ⟨target, same⟩ <;> rw [same] <;>
      cases shape : source.data <;> first | rfl | exact absurd (congrArg Data.kind shape) other
  rw [step]
  cases bytesForBlock machine.blocks source start count with
  | error reason => rfl
  | ok bytes =>
      rw [Effect.lift_ok_bind_run]
      by_cases empty : bytes.isEmpty = true
      · simp only [if_pos empty]
        rfl
      · simp only [if_neg empty]

theorem route_of_file {id : FileId} (block : isBlock destination.kind = true)
    (file : source.data = .file id) (start : Nat) (count position : Int) (exclusive : Bool) :
    route source start count destination position exclusive
      = fileIntoBlock id start count destination position := by
  funext machine
  unfold route
  rw [Effect.get_bind_run, file]
  rcases isBlock_shape block with ⟨target, shape⟩ | ⟨target, shape⟩ <;> rw [shape]

theorem route_from_file (block : isBlock destination.kind = true) (file : source.kind = .file)
    (start : Nat) (count position : Int) (exclusive : Bool) :
    ∃ id, route source start count destination position exclusive
      = fileIntoBlock id start count destination position := by
  rw [Value.kind] at file
  cases shape : source.data <;> rw [shape] at file <;> cases file
  exact ⟨_, route_of_file block shape start count position exclusive⟩

end Copy

end Calculator
