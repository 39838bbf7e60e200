import Calculator.Proofs.Gateway

/-!
# Failed copies

A copy makes all its checks before it changes anything. When it fails, its destination is what it was,
and so are named blocks and pools. A file may have been moved, read or written by then, and nothing but
files: where no file takes part, nothing is changed at all.
-/

namespace Calculator

namespace Effect

variable {ε σ α β : Type} {kept : σ → σ → Prop}

def Fails (kept : σ → σ → Prop) (program : ExceptT ε (StateM σ) α) : Prop :=
  ∀ before error after, program before = (.error error, after) → kept before after

theorem Fails.pure (result : α) : Fails kept (Pure.pure result : ExceptT ε (StateM σ) α) := by
  intro before error after failed
  cases failed

theorem Fails.get_bind {next : σ → ExceptT ε (StateM σ) β}
    (continued : ∀ state, Fails kept (next state)) :
    Fails kept ((get : ExceptT ε (StateM σ) σ) >>= next) := by
  intro before error after failed
  exact continued before before error after failed

theorem Fails.throw_bind (refl : ∀ state, kept state state) (error : ε)
    (next : α → ExceptT ε (StateM σ) β) :
    Fails kept ((throw error : ExceptT ε (StateM σ) α) >>= next) := by
  intro before reason after failed
  cases failed
  exact refl before

theorem Fails.lift_bind (refl : ∀ state, kept state state) (answer : Except ε α)
    {next : α → ExceptT ε (StateM σ) β} (continued : ∀ result, Fails kept (next result)) :
    Fails kept (liftM answer >>= next) := by
  intro before error after failed
  cases answer with
  | ok result => exact continued result before error after failed
  | error reason =>
      cases failed
      exact refl before

theorem Fails.bind {program : ExceptT ε (StateM σ) α} {next : α → ExceptT ε (StateM σ) β}
    (trans : ∀ first second third, kept first second → kept second third → kept first third)
    (steps : ∀ before, kept before (program before).2)
    (continued : ∀ result, Fails kept (next result)) : Fails kept (program >>= next) := by
  intro before error after failed
  have stepped := steps before
  rcases ran : program before with ⟨result, between⟩
  rw [ran] at stepped
  cases result with
  | ok result =>
      rw [bind_ok ran] at failed
      exact trans _ _ _ stepped (continued result between error after failed)
  | error reason =>
      rw [bind_error ran] at failed
      cases failed
      exact stepped

end Effect

namespace Copy

open Effect (Fails)

def FilesAside (before after : Machine) : Prop :=
  after = { before with files := after.files }

theorem FilesAside.refl (machine : Machine) : FilesAside machine machine := rfl

theorem FilesAside.trans (first second third : Machine) (one : FilesAside first second)
    (two : FilesAside second third) : FilesAside first third := by
  rw [FilesAside] at *
  rw [two, one]

theorem onFiles_aside {α : Type} (id : FileId) (wrap : FileError → CopyError) (operation : FileM α)
    (machine : Machine) : FilesAside machine (onFiles id wrap operation machine).2 := rfl

/-- What a refused change leaves: the destination, and the machine but for files where one takes part. -/
structure Scene.Kept (takesFile : Bool) (before after : Scene) : Prop where
  destination : after.destination = before.destination
  aside : FilesAside before.machine after.machine
  files : takesFile = false → after.machine.files = before.machine.files

/-- What refused work leaves: the block, and the files where none takes part. -/
structure Bench.Kept (takesFile : Bool) (before after : Bench) : Prop where
  block : after.block = before.block
  files : takesFile = false → after.files = before.files

section Benches

variable {takesFile : Bool}

theorem Bench.Kept.refl (bench : Bench) : bench.Kept takesFile bench := ⟨rfl, fun _ => rfl⟩

theorem Bench.Kept.trans (first second third : Bench) (one : first.Kept takesFile second)
    (two : second.Kept takesFile third) : first.Kept takesFile third :=
  ⟨two.block.trans one.block, fun none => (two.files none).trans (one.files none)⟩

theorem writeBlock_fails (canGrow : Bool) (bytes : Bytes) (position : Int) :
    Fails (Bench.Kept takesFile) (writeBlock canGrow bytes position) := by
  intro before error after failed
  rw [writeBlock_run] at failed
  cases stored : before.block.store canGrow bytes position with
  | ok block =>
      rw [stored] at failed
      cases failed
  | error reason =>
      rw [stored] at failed
      cases failed
      exact .refl before

theorem besideBlock_bind_fails {α β : Type} {id : FileId} {wrap : FileError → CopyError}
    {operation : FileM α} {next : α → BenchM β}
    (continued : ∀ result, Fails (Bench.Kept true) (next result)) :
    Fails (Bench.Kept true) (besideBlock id wrap operation >>= next) :=
  Fails.bind Bench.Kept.trans (fun _ => ⟨rfl, by simp⟩) continued

theorem readFileInto_fails (id : FileId) (start : Nat) (count position : Int) (canGrow : Bool) :
    Fails (Bench.Kept true) (readFileInto id start count position canGrow) := by
  unfold readFileInto
  dsimp only
  split
  · exact Fails.throw_bind Bench.Kept.refl _ _
  apply besideBlock_bind_fails
  intro size
  split
  · exact Fails.throw_bind Bench.Kept.refl _ _
  split
  · exact Fails.pure ()
  apply besideBlock_bind_fails
  intro _
  apply besideBlock_bind_fails
  intro bytes
  split
  · exact Fails.throw_bind Bench.Kept.refl _ _
  · exact writeBlock_fails canGrow bytes position

end Benches

section Scenes

variable {takesFile : Bool}

theorem Scene.Kept.refl (scene : Scene) : scene.Kept takesFile scene :=
  ⟨rfl, rfl, fun _ => rfl⟩

theorem onBlock_fails {work : Bool → BenchM Unit}
    (fails : ∀ canGrow, Fails (Bench.Kept takesFile) (work canGrow)) :
    Fails (Scene.Kept takesFile) (onBlock work) := by
  rintro ⟨⟨data, protection⟩, machine⟩ error after failed
  unfold onBlock at failed
  cases data with
  | block block =>
      dsimp only at failed
      rcases ran : work protection.canGrow { block, files := machine.files } with ⟨result, bench⟩
      rw [ran] at failed
      cases failed
      have kept := fails _ _ _ _ ran
      exact ⟨by rw [kept.block], rfl, kept.files⟩
  | namedBlock id =>
      dsimp only at failed
      cases listed : machine.blocks.get? id with
      | none =>
          rw [listed] at failed
          cases failed
          exact .refl _
      | some named =>
          cases stored : named.block with
          | none =>
              simp only [listed, stored] at failed
              cases failed
              exact .refl _
          | some block =>
              simp only [listed, stored] at failed
              rcases ran : work (protection.canGrow && named.protection.canGrow)
                { block, files := machine.files } with ⟨result, bench⟩
              rw [ran] at failed
              cases failed
              have kept := fails _ _ _ _ ran
              have held : machine.blocks.storage? id = some block := by
                rw [NamedBlocks.storage?, listed, Option.bind_some, stored]
              refine ⟨rfl, ?_, kept.files⟩
              rw [FilesAside, kept.block, NamedBlocks.setStorage_same held]
  | _ =>
      cases failed
      exact .refl _

/-- Slots are counted before the first of them is changed. -/
theorem onSlots_fails {destination : Value} {machine : Machine} {slots values : List Value}
    {rebuild : List Value → Data Value} {position : Int} {error : CopyError} {after : Scene}
    (held : destination.data = rebuild slots)
    (failed : onSlots slots rebuild (writeSlots values position) { destination, machine }
      = (.error error, after)) :
    after = { destination, machine } := by
  rw [onSlots_run] at failed
  cases put : intoSlots slots values position with
  | ok slots =>
      rw [put] at failed
      cases failed
  | error reason =>
      rw [put] at failed
      cases failed
      rw [← held]
      obtain ⟨data, protection⟩ := destination
      rfl

theorem onFiles_fails {α : Type} (id : FileId) (wrap : FileError → CopyError) (operation : FileM α) :
    Fails FilesAside (onFiles id wrap operation) := by
  intro before error after failed
  have aside := onFiles_aside id wrap operation before
  rw [failed] at aside
  exact aside

theorem onFiles_bind_fails {α β : Type} {id : FileId} {wrap : FileError → CopyError}
    {operation : FileM α} {next : α → CopyM β} (continued : ∀ result, Fails FilesAside (next result)) :
    Fails FilesAside (onFiles id wrap operation >>= next) :=
  Fails.bind FilesAside.trans (onFiles_aside id wrap operation) continued

theorem intoFile_fails (id : FileId) (bytes : Bytes) (position : Int) :
    Fails FilesAside (intoFile id bytes position) := by
  have written : Fails FilesAside (do
      onFiles id .shortWrite (Files.write id bytes)
      onFiles id .shortWrite (Files.flush id)) := by
    apply onFiles_bind_fails
    intro _
    exact onFiles_fails _ _ _
  unfold intoFile
  dsimp only
  split
  · exact Fails.throw_bind FilesAside.refl _ _
  split
  · apply onFiles_bind_fails
    intro _
    exact written
  · exact written

theorem onMachine_fails {α : Type} {work : CopyM α} (fails : Fails FilesAside work) :
    Fails (Scene.Kept true) (onMachine work) := by
  intro before error after failed
  rcases ran : work before.machine with ⟨result, machine⟩
  rw [onMachine, ran] at failed
  cases failed
  exact ⟨rfl, fails _ _ _ ran, by simp⟩

end Scenes

def betweenFiles (source destination : Value) : Bool :=
  source.kind == .file || destination.kind == .file

theorem routeInto_fails (source : Value) (start : Nat) (count position : Int) (exclusive : Bool)
    {before after : Scene} {error : CopyError}
    (failed : routeInto source start count position exclusive before = (.error error, after)) :
    before.Kept (betweenFiles source before.destination) after := by
  obtain ⟨⟨data, protection⟩, machine⟩ := before
  have gathered {α : Type} (answer : Except CopyError (List α)) {next : List α → SceneM Unit}
      {scene : Scene} (continued : ∀ units, next units scene = (.error error, after) →
          Scene.Kept (betweenFiles source scene.destination) scene after)
      (ran : (liftM answer >>= fun units => if units.isEmpty then pure () else next units : SceneM Unit)
        scene = (.error error, after)) :
      Scene.Kept (betweenFiles source scene.destination) scene after := by
    cases answer with
    | error reason =>
        cases ran
        exact .refl _
    | ok units =>
        rw [Effect.lift_ok_bind_run] at ran
        split at ran
        · cases ran
        · exact continued units ran
  unfold routeInto at failed
  rw [Effect.get_bind_run] at failed
  cases data with
  | number payload => exact gathered _ (fun _ put => by cases put) failed
  | text payload => exact gathered _ (fun _ put => by cases put) failed
  | file id =>
      refine gathered _ (fun bytes written => ?_) failed
      have takes : betweenFiles source ⟨.file id, protection⟩ = true := Bool.or_true _
      rw [takes]
      exact onMachine_fails (intoFile_fails id bytes position) _ _ _ written
  | matrix bounds slots =>
      refine gathered _ (fun values put => ?_) failed
      rw [onSlots_fails rfl put]
      exact .refl _
  | list items =>
      refine gathered _ (fun values put => ?_) failed
      rw [onSlots_fails rfl put]
      exact .refl _
  | _ =>
      cases shape : source.data with
      | file id =>
          rw [shape] at failed
          have takes (destination : Value) : betweenFiles source destination = true := by
            rw [betweenFiles, Value.kind, shape]
            rfl
          rw [takes]
          exact onBlock_fails (readFileInto_fails id start count position) _ _ _ failed
      | _ =>
          rw [shape] at failed
          refine gathered _ (fun bytes put => ?_) failed
          exact onBlock_fails (fun canGrow => writeBlock_fails canGrow bytes position) _ _ _ put

theorem copyInto_fails (source : Value) (start count position : Int) (exclusive : Bool)
    {before after : Scene} {error : CopyError}
    (failed : copyInto source start count position exclusive before = (.error error, after)) :
    before.Kept (betweenFiles source before.destination) after := by
  unfold copyInto at failed
  rw [Effect.get_bind_run] at failed
  dsimp only at failed
  cases checked : checkProtection before.machine.blocks source before.destination with
  | error reason =>
      rw [checked] at failed
      cases failed
      exact .refl before
  | ok _ =>
      rw [checked, Effect.lift_ok_bind_run] at failed
      cases kinds : checkKinds source.kind before.destination.kind with
      | error reason =>
          rw [kinds] at failed
          cases failed
          exact .refl before
      | ok _ =>
          rw [kinds, Effect.lift_ok_bind_run] at failed
          split at failed
          · cases failed
            exact .refl _
          · split at failed
            · cases failed
              exact .refl _
            · exact routeInto_fails source start.toNat count position exclusive failed

theorem fillInto_fails (byte : UInt8) (count start : Int) :
    Fails (Scene.Kept false) (fillInto byte count start) := by
  unfold fillInto
  apply Fails.get_bind
  intro scene
  apply Fails.lift_bind Scene.Kept.refl
  intro _
  split
  · exact Fails.throw_bind Scene.Kept.refl _ _
  · apply onBlock_fails
    intro _ bench error after failed
    cases failed

namespace Change

def takesFile (change : Change) (destination : Value) : Bool :=
  match change with
  | .copy source _ _ _ => betweenFiles source destination
  | .fill _ _ _ => false

theorem program_fails (change : Change) (exclusive : Bool) {before after : Scene}
    {error : CopyError} (failed : change.program exclusive before = (.error error, after)) :
    before.Kept (change.takesFile before.destination) after := by
  cases change with
  | copy source start count position =>
      exact copyInto_fails source start count position exclusive failed
  | fill byte count start => exact fillInto_fails byte count start _ _ _ failed

/-- A change that fails leaves the destination, the named blocks and both pools as they were, and where
it takes no file it leaves all. -/
theorem failed_change_leaves_all {change : Change} {exclusive : Bool} {before after : Scene}
    {error : CopyError} (failed : change.program exclusive before = (.error error, after)) :
    after.destination = before.destination
      ∧ after.machine = { before.machine with files := after.machine.files }
      ∧ (change.takesFile before.destination = false → after = before) := by
  obtain ⟨destination, aside, files⟩ := change.program_fails exclusive failed
  refine ⟨destination, aside, fun apart => ?_⟩
  obtain ⟨before, machine⟩ := before
  obtain ⟨now, after⟩ := after
  cases destination
  rw [FilesAside, files apart] at aside
  rw [show after = machine from aside]

/-- The change as one that is answered with its destination. -/
def answered (change : Change) (exclusive : Bool) (destination : Value) : CopyM Value :=
  match change with
  | .copy source start count position => Copy.copy source start count destination position exclusive
  | .fill byte count start => Copy.fill destination byte count start

theorem answered_run (change : Change) (exclusive : Bool) (destination : Value)
    (machine : Machine) :
    change.answered exclusive destination machine
      = ((change.program exclusive { destination, machine }).1.map
            fun _ => (change.program exclusive { destination, machine }).2.destination,
          (change.program exclusive { destination, machine }).2.machine) := by
  cases change <;> rfl

/-- What holds of a destination, and of all that may be answered for it, holds of what is left of it. -/
theorem left_holds {change : Change} {exclusive : Bool} {destination : Value} {machine : Machine}
    {good : Value → Prop} (before : good destination)
    (after : ∀ value, (change.answered exclusive destination machine).1 = .ok value → good value) :
    good (change.program exclusive { destination, machine }).2.destination := by
  rw [answered_run] at after
  rcases ran : change.program exclusive { destination, machine } with ⟨result, scene⟩
  rw [ran] at after
  cases result with
  | ok _ => exact after _ rfl
  | error reason =>
      rw [(change.program_fails exclusive ran).destination]
      exact before

def fixedBlock : Value where
  data := .block (Block.ofBytes [1] 1)
  protection := Protection.noRealloc

def oneBlock : Scene where
  destination := fixedBlock
  machine := Machine.new {} (Host.initial none none)

theorem refused_growth_leaves_all :
    (Change.copy (.ofText [0x61, 0x62, 0x63]) 0 (-1) 0).program true oneBlock
      = (.error .noRealloc, oneBlock) := by
  have failed : (Change.copy (.ofText [0x61, 0x62, 0x63]) 0 (-1) 0).program true oneBlock
      = (.error .noRealloc,
        ((Change.copy (.ofText [0x61, 0x62, 0x63]) 0 (-1) 0).program true oneBlock).2) := rfl
  exact failed.trans (congrArg (Prod.mk _) ((failed_change_leaves_all failed).2.2 rfl))

end Change

end Copy

end Calculator
