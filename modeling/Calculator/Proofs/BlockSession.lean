import Calculator.Proofs.BuiltinBlocks
import Calculator.Proofs.FailedCopy
import Calculator.Session

/-!
# Blocks in a session

A session holds blocks in its variables and in the registry, and answers values with blocks in them.
Whatever is asked of it, each of these blocks was built by calls from an origin, if those that were
handed in were. So all of them are sound, and none shows what was cut off.
-/

namespace Calculator

/-- A request to the registry of named blocks. -/
inductive RegistryCall where
  | create (name : String) (length chunk : Int)
  | resize (id : BlockId) (length chunk : Int)
  | free (id : BlockId)
  | freeByName (name : String)
  | protect (id : BlockId) (bits : Protection)
  | setProtection (id : BlockId) (protection : Protection)

namespace RegistryCall

def perform : RegistryCall → NamedBlocks → Except BlockError NamedBlocks
  | create name length chunk, registry => (registry.create name length chunk).map Prod.snd
  | resize id length chunk, registry => registry.resize id length chunk
  | free id, registry => registry.free id
  | freeByName name, registry => registry.freeByName name
  | protect id bits, registry => registry.protect id bits
  | setProtection id protection, registry =>
      match registry.get? id with
      | some named => .ok (registry.set id { named with protection })
      | none => .error (.noSuchId id)

theorem perform_keeps (call : RegistryCall) : NamedBlocks.Keeps call.perform := by
  cases call with
  | create name length chunk =>
      intro registry after built made
      dsimp only [perform] at made
      cases created : registry.create name length chunk with
      | error error =>
          rw [created] at made
          cases made
      | ok answer =>
          rw [created] at made
          cases made
          exact built.create created
  | resize id length chunk => exact NamedBlocks.resize_keeps id length chunk
  | free id => exact NamedBlocks.free_keeps id
  | freeByName name => exact NamedBlocks.freeByName_keeps name
  | protect id bits => exact NamedBlocks.protect_keeps id bits
  | setProtection id protection =>
      intro registry after built made
      dsimp only [perform] at made
      split at made
      · rename_i named listed
        cases made
        exact built.setProtection listed protection
      · cases made

end RegistryCall

namespace Session

def blocks (session : Session) : List Block :=
  (session.bindings.flatMap fun entry => entry.2.blocks)
    ++ session.machine.blocks.blocks.filterMap NamedBlock.block

structure Built (session : Session) : Prop where
  bindings : ∀ entry ∈ session.bindings, entry.2.Built
  registry : session.machine.Built

variable {session : Session}

theorem Built.blocks (built : session.Built) : ∀ block ∈ session.blocks, block.Built := by
  intro block within
  rcases List.mem_append.mp within with held | named
  · obtain ⟨entry, member, inside⟩ := List.mem_flatMap.mp held
    exact built.bindings entry member block inside
  · obtain ⟨entry, member, stored⟩ := List.mem_filterMap.mp named
    exact built.registry entry member block stored

theorem start_built (config : Config) (host : Host) : (start config host).Built where
  bindings := fun _ member => nomatch member
  registry := fun _ member => nomatch member

theorem mem_setVariable {name : String} {value : Value} {bindings : List (String × Value)}
    {entry : String × Value} (member : entry ∈ setVariable name value bindings) :
    entry = (name, value) ∨ entry ∈ bindings := by
  induction bindings with
  | nil => exact .inl (List.mem_singleton.mp member)
  | cons head rest ih =>
      rw [setVariable] at member
      split at member
      · rcases List.mem_cons.mp member with own | later
        · exact .inl own
        · exact .inr (List.mem_cons_of_mem _ later)
      · rcases List.mem_cons.mp member with rfl | later
        · exact .inr List.mem_cons_self
        · exact (ih later).imp_right (List.mem_cons_of_mem _)

theorem Built.assign (built : session.Built) (name : String) {value : Value} (given : value.Built) :
    (session.assign name value).Built where
  bindings := by
    intro entry member
    rcases mem_setVariable member with rfl | old
    · rw [Value.Built, Value.blocks_visit, Value.blocks_place]
      exact given
    · exact built.bindings entry old
  registry := built.registry

theorem Built.withMachine (built : session.Built) {machine : Machine} (kept : machine.Built) :
    ({ session with machine } : Session).Built :=
  ⟨built.bindings, kept⟩

theorem Built.putBack (built : session.Built) (name : String) {value : Value}
    (given : value.Built) : (session.putBack name value).Built := by
  have written (heap : Heap) : ({ session with heap } : Session).Built :=
    ⟨built.bindings, built.registry⟩
  unfold Session.putBack
  split
  · exact (written _).assign name given
  · exact built.assign name given

theorem putBack_machine (session : Session) (name : String) (value : Value) :
    (session.putBack name value).machine = session.machine := by
  unfold putBack
  split <;> rfl

theorem alter_machine (session : Session) (change : Copy.Change) (destination : Value)
    (holder : Option String) :
    (session.alter change destination holder).2.2.machine
      = (change.program (session.isExclusive destination holder.isSome)
          { destination, machine := session.machine }).2.machine := by
  cases holder with
  | none => rfl
  | some name => exact putBack_machine _ name _

theorem Built.erase (built : session.Built) (name : String) : (session.erase name).Built where
  bindings := fun entry member => built.bindings entry (List.mem_filter.mp member).1
  registry := built.registry

theorem Built.value? (built : session.Built) {name : String} {value : Value}
    (held : session.value? name = some value) : value.Built := by
  obtain ⟨stored, found, loaded⟩ := Option.map_eq_some_iff.mp held
  rw [Value.Built, ← loaded, Heap.load, Value.blocks_visit]
  exact built.bindings (name, stored) (mem_of_lookup found)

theorem Built.block? (built : session.Built) {place : BlockPlace} {block : Block}
    (held : session.block? place = some block) : block.Built := by
  cases place with
  | stored name =>
      dsimp only [Session.block?] at held
      split at held
      · rename_i stored
        cases held
        exact (Value.built_of_block rfl).mp (built.value? stored)
      · cases held
  | named id => exact NamedBlocks.Built.storage? built.registry held

theorem Built.setBlock (built : session.Built) (place : BlockPlace) {block : Block}
    (made : block.Built) : (session.setBlock place block).Built := by
  cases place with
  | stored name =>
      dsimp only [Session.setBlock]
      split
      · exact built.assign name ((Value.built_of_block rfl).mpr made)
      · exact built
  | named id =>
      apply built.withMachine
      apply NamedBlocks.Built.setStorage built.registry
      intro new stored
      cases stored
      exact made

end Session

/-- What can be asked of a session, or happen to its files and pools. -/
inductive Request where
  | assign (name : String) (value : Value)
  | erase (name : String)
  | builtin (name : String) (arguments : List Value)
  | alter (change : Copy.Change) (destination : Value) (holder : Option String)
  | onBlock (place : BlockPlace) (call : Block.Call)
  | onRegistry (call : RegistryCall)
  | elsewhere (files : Files) (constants : Constants) (literals : Literals)

namespace Request

/-- The value that the request is answered with, if any, and the session then. -/
def perform (request : Request) (session : Session) : Option Value × Session :=
  match request with
  | assign name value => (none, session.assign name value)
  | erase name => (none, session.erase name)
  | builtin name arguments =>
      let (result, session) := session.call name arguments
      (result.toOption, session)
  | alter change destination holder =>
      let (_, left, session) := session.alter change destination holder
      (some left, session)
  | onBlock place call =>
      match session.block? place with
      | some block => (none, session.setBlock place (call.perform block))
      | none => (none, session)
  | onRegistry call =>
      match call.perform session.machine.blocks with
      | .ok blocks => (none, { session with machine := { session.machine with blocks } })
      | .error _ => (none, session)
  | elsewhere files constants literals =>
      (none, { session with machine := { session.machine with files, constants, literals } })

/-- The blocks that a request hands in. -/
def given : Request → List Block
  | assign _ value => value.blocks
  | builtin _ arguments => arguments.flatMap Value.blocks
  | alter (.copy source _ _ _) destination _ => source.blocks ++ destination.blocks
  | alter (.fill _ _ _) destination _ => destination.blocks
  | _ => []

/-- The blocks in all states of a run and in all its answers. -/
def reach : List Request → Session → List Block
  | [], session => session.blocks
  | request :: rest, session =>
      session.blocks ++ (request.perform session).1.toList.flatMap Value.blocks
        ++ reach rest (request.perform session).2

open Effect (Upholds)

theorem answered_upholds {change : Copy.Change} {destination : Value} {holder : Option String}
    (handed : ∀ block ∈ (alter change destination holder).given, block.Built) (exclusive : Bool) :
    Upholds Machine.Built (change.answered exclusive destination) Value.Built := by
  cases change with
  | copy source start count position =>
      apply Copy.copy_upholds
      · exact fun block within => handed block (List.mem_append_left _ within)
      · exact fun block within => handed block (List.mem_append_right _ within)
  | fill byte count start => exact Copy.fill_upholds handed byte count start

theorem given_destination {change : Copy.Change} {destination : Value} {holder : Option String}
    (handed : ∀ block ∈ (alter change destination holder).given, block.Built) :
    destination.Built := by
  intro block within
  cases change with
  | copy source start count position => exact handed block (List.mem_append_right _ within)
  | fill byte count start => exact handed block within

theorem perform_built {session : Session} (built : session.Built) (request : Request)
    (handed : ∀ block ∈ request.given, block.Built) :
    (request.perform session).2.Built
      ∧ ∀ value, (request.perform session).1 = some value → value.Built := by
  have silent {reached : Session} (kept : reached.Built) :
      reached.Built ∧ ∀ value, (none : Option Value) = some value → value.Built :=
    ⟨kept, fun _ answered => nomatch answered⟩
  have answered {ε : Type} {answer : Except ε Value}
      (holds : ∀ result, answer = .ok result → result.Built) :
      ∀ value, answer.toOption = some value → value.Built := by
    intro value given
    cases answer with
    | error error => cases given
    | ok result =>
        cases given
        exact holds value rfl
  cases request with
  | assign name value => exact silent (built.assign name handed)
  | erase name => exact silent (built.erase name)
  | builtin name arguments =>
      have each : ∀ value ∈ arguments, value.Built := by
        intro value member block within
        exact handed block (List.mem_flatMap.mpr ⟨value, member, within⟩)
      obtain ⟨kept, holds⟩ :=
        Registry.standard_call_upholds name each session.machine built.registry
      exact ⟨built.withMachine kept, answered holds⟩
  | alter change destination holder =>
      have upheld := answered_upholds handed (session.isExclusive destination holder.isSome)
        session.machine built.registry
      have left := Copy.Change.left_holds (given_destination handed) upheld.2
      have kept := upheld.1
      rw [Copy.Change.answered_run] at kept
      dsimp only [perform, Session.alter]
      cases holder with
      | none => exact ⟨built.withMachine kept, fun value same => Option.some.inj same ▸ left⟩
      | some name =>
          exact ⟨(built.withMachine kept).putBack name left,
            fun value same => Option.some.inj same ▸ left⟩
  | onBlock place call =>
      dsimp only [perform]
      split
      · rename_i block held
        exact silent (built.setBlock place ((built.block? held).perform call))
      · exact silent built
  | onRegistry call =>
      dsimp only [perform]
      split
      · rename_i blocks made
        exact silent (built.withMachine (call.perform_keeps _ _ built.registry made))
      · exact silent built
  | elsewhere files constants literals => exact silent (built.withMachine built.registry)

theorem reach_built {session : Session} (built : session.Built) (requests : List Request)
    (handed : ∀ request ∈ requests, ∀ block ∈ request.given, block.Built) :
    ∀ block ∈ reach requests session, block.Built := by
  induction requests generalizing session with
  | nil => exact built.blocks
  | cons request rest ih =>
      obtain ⟨kept, answered⟩ := perform_built built request (handed request List.mem_cons_self)
      intro block within
      rcases List.mem_append.mp within with now | later
      · rcases List.mem_append.mp now with held | given
        · exact built.blocks block held
        · obtain ⟨value, answer, inside⟩ := List.mem_flatMap.mp given
          exact answered value (Option.mem_toList.mp answer) block inside
      · exact ih kept (fun other member => handed other (List.mem_cons_of_mem _ member)) block later

end Request

/-- Blocks are sound whatever is called on them, growth shows zeros and what was just written, and what
was cut off is not seen again; so is every block that a session holds or answers. -/
theorem blocks_stay_guarded (origin : Block.Origin) (calls : List Block.Call) (config : Config)
    (host : Host) (requests : List Request)
    (handed : ∀ request ∈ requests, ∀ block ∈ request.given, block.Built) :
    (Block.Call.performAll calls origin.build).Guarded
      ∧ ∀ block ∈ Request.reach requests (Session.start config host),
          block.Built ∧ block.Guarded := by
  refine ⟨Block.Built.guarded ⟨origin, calls, rfl⟩, ?_⟩
  intro block within
  have built := Request.reach_built (Session.start_built config host) requests handed block within
  exact ⟨built, built.guarded⟩

namespace Request

def threeBytes : Block := Block.ofBytes [1, 2, 3] 4

/-- A block is cut, shown again, copied into a named block, and filled. -/
def sample : List Request :=
  [.assign "b" (Value.ofBlock threeBytes),
   .onBlock (.stored "b") (.resize 1 (-1)),
   .onBlock (.stored "b") (.extend 3),
   .onRegistry (.create "n" 2 4),
   .alter (.copy (Value.ofBlock threeBytes) 1 (-1) 6) (Value.ofNamedBlock ⟨0⟩) none,
   .alter (.fill 9 2 0) (Value.ofBlock threeBytes) (some "b"),
   .builtin "blk" [Value.ofBlock threeBytes, Value.ofInt 1]]

theorem sample_handed : ∀ request ∈ sample, ∀ block ∈ request.given, block.Built := by
  have built : threeBytes.Built := Block.Origin.built (.ofBytes [1, 2, 3] 4)
  have same : ∀ request ∈ sample, ∀ block ∈ request.given, block = threeBytes := by decide
  intro request member block within
  rw [same request member block within]
  exact built

/-- The bytes 2 and 3 are cut off, and show as zeros. -/
theorem sample_stays_guarded :
    (∀ request ∈ sample, ∀ block ∈ request.given, block.Built)
      ∧ (Block.Call.performAll [.resize 1 (-1), .extend 3] threeBytes).data = [1, 0, 0]
      ∧ (Block.Call.performAll [.resize 1 (-1), .extend 3] threeBytes).Guarded
      ∧ ∀ block ∈ reach sample (Session.start {} (Host.initial none none)),
          block.Built ∧ block.Guarded := by
  refine ⟨sample_handed, by decide, ?_⟩
  exact blocks_stay_guarded (.ofBytes [1, 2, 3] 4) [.resize 1 (-1), .extend 3] {}
    (Host.initial none none) sample sample_handed

end Request

end Calculator
