import Calculator.Proofs.RegistryChronicle
import Calculator.Proofs.Spellings

/-!
# Names of blocks

A text that `blk` and `blkfree` are called with is read as a name first, and the registry knows a block
by its name. So two texts stand for one block exactly if they are read alike, and this does not change
along a run: names come into the registry behind those that are there, and none leaves. This holds as
long as there is a handle for each name.
-/

namespace Calculator

def NamedBlock.released (named : NamedBlock) : NamedBlock :=
  if named.protection.canGrow then { named with block := none } else named

/-- The entry can be resized to a length and a chunk, negative ones being those that it has. -/
def NamedBlock.accepts (named : NamedBlock) (length chunk : Int) : Bool :=
  named.protection.canGrow || length < 0 && chunk < 0 && named.block.isSome

namespace NamedBlocks

variable {registry after : NamedBlocks} {name : String} {id other : BlockId} {named : NamedBlock}

theorem Coherent.find?_inj (coherent : registry.Coherent) (few : registry.size ≤ UInt32.size)
    (found : registry.find? name = some id) {wanted : String}
    (also : registry.find? wanted = some id) : wanted = name := by
  obtain ⟨named, listed, bears⟩ := coherent.get?_of_find? few found
  obtain ⟨_, again, bears'⟩ := coherent.get?_of_find? few also
  rw [listed] at again
  cases again
  rw [← bears, ← bears']

theorem Moves.size_le {asked : Option String} (moves : registry.Moves NamedBlock.Change asked after) :
    after.size ≤ registry.size + 1 := by
  have counted (registry : NamedBlocks) : registry.size = registry.labels.length := by
    rw [NamedBlocks.labels, List.length_map, size]
  rw [counted, counted]
  rcases moves.labels with same | ⟨_, _, _, grown⟩
  · rw [same]
    exact Nat.le_succ _
  · rw [grown, List.length_append]
    exact Nat.le_refl _

theorem create_finds {length chunk : Int}
    (created : registry.create name length chunk = .ok (id, after)) : after.find? name = some id := by
  dsimp only [create] at created
  split at created
  · cases created
  split at created
  · cases created
  split at created
  · cases created
  cases created
  rw [find?_add, if_pos rfl]

theorem resize_listed (listed : registry.get? id = some named) (length chunk : Int) :
    (named.accepts length chunk = true → ∃ after, registry.resize id length chunk = .ok after)
      ∧ (named.accepts length chunk = false →
          registry.resize id length chunk = .error (.reallocDenied id)) := by
  rw [NamedBlock.accepts, resize, listed]
  dsimp only
  cases loose : named.protection.canGrow with
  | true =>
      rw [if_pos rfl]
      refine ⟨fun _ => ?_, fun refused => nomatch refused⟩
      split <;> exact ⟨_, rfl⟩
  | false =>
      rw [if_neg Bool.false_ne_true, Bool.false_or]
      refine ⟨fun kept => ⟨registry, if_pos kept⟩, fun refused => if_neg ?_⟩
      rw [refused]
      exact Bool.false_ne_true

theorem free_get?_self (listed : registry.get? id = some named) :
    ((registry.free id).toOption.getD registry).get? id = some named.released := by
  rw [free, listed]
  dsimp only
  rw [NamedBlock.released]
  split
  · rename_i empty
    rw [Option.isNone_iff_eq_none] at empty
    have same : { named with block := none } = named := by rw [← empty]
    rw [same, ite_self]
    exact listed
  split
  · show (registry.setStorage id none).get? id = _
    rw [setStorage_eq_set listed, get?_set, if_pos rfl, listed]
    rfl
  · exact listed

theorem free_get?_of_ne (apart : other ≠ id) :
    ((registry.free other).toOption.getD registry).get? id = registry.get? id := by
  rw [free]
  cases known : registry.get? other with
  | none => rfl
  | some entry =>
      dsimp only
      split
      · rfl
      split
      · show (registry.setStorage other none).get? id = _
        rw [setStorage_eq_set known, get?_set, if_neg (Ne.symm apart)]
      · rfl

/-- Freeing by a name releases the block of that name and leaves all others. -/
theorem Coherent.freeByName_get? (coherent : registry.Coherent) (few : registry.size ≤ UInt32.size)
    (found : registry.find? name = some id) (listed : registry.get? id = some named)
    (wanted : String) :
    ((registry.freeByName wanted).toOption.getD registry).get? id
      = some (if wanted = name then named.released else named) := by
  by_cases own : wanted = name
  · rw [if_pos own, own, freeByName, found]
    exact free_get?_self listed
  · rw [if_neg own, ← listed, freeByName]
    cases known : registry.find? wanted with
    | none => rfl
    | some freed =>
        have apart : freed ≠ id := by
          rintro rfl
          exact own (coherent.find?_inj few found known)
        exact free_get?_of_ne apart

end NamedBlocks

namespace Request

variable {session : Session} {name : String} {id : BlockId}

theorem perform_find? (request : Request) (found : session.machine.blocks.find? name = some id) :
    (request.perform session).2.machine.blocks.find? name = some id :=
  (perform_changes request session).find? found

theorem performAll_find? (requests : List Request)
    (found : session.machine.blocks.find? name = some id) :
    (performAll requests session).machine.blocks.find? name = some id := by
  induction requests generalizing session with
  | nil => exact found
  | cons request rest ih => exact ih (perform_find? request found)

end Request

namespace Builtin

variable {machine after : Machine} {name : String} {id : BlockId} {named : NamedBlock}
  {length chunk : Int}

section OnBlocks

variable {operation : NamedBlocks → Except BlockError NamedBlocks}

theorem onBlocks_ok {blocks : NamedBlocks} (made : operation machine.blocks = .ok blocks) :
    onBlocks operation machine = (.ok (), { machine with blocks }) := by
  rw [onBlocks, Effect.get_bind_run, made]
  rfl

theorem onBlocks_error {error : BlockError} (failed : operation machine.blocks = .error error) :
    onBlocks operation machine = (.error error.code, machine) := by
  rw [onBlocks, Effect.get_bind_run, failed]
  rfl

theorem onBlocks_blocks (operation : NamedBlocks → Except BlockError NamedBlocks) (machine : Machine) :
    (onBlocks operation machine).2.blocks = (operation machine.blocks).toOption.getD machine.blocks := by
  cases made : operation machine.blocks with
  | ok blocks =>
      rw [onBlocks_ok made]
      rfl
  | error error =>
      rw [onBlocks_error made]
      rfl

end OnBlocks

theorem namedBlock_finds (ran : namedBlock name length chunk machine = (.ok id, after)) :
    after.blocks.find? name = some id := by
  rw [namedBlock, Effect.get_bind_run] at ran
  cases known : machine.blocks.find? name with
  | some present =>
      rw [known] at ran
      dsimp only at ran
      cases resized : machine.blocks.resize present length chunk with
      | ok blocks =>
          rw [Effect.bind_ok (onBlocks_ok resized)] at ran
          cases ran
          have moves := @NamedBlocks.resize_moves none _ _ _ _ _ resized
          exact (moves.mono (fun _ _ step => .checked step) fun _ same => same).find? known
      | error error =>
          rw [Effect.bind_error (onBlocks_error resized)] at ran
          cases ran
  | none =>
      rw [known] at ran
      dsimp only at ran
      generalize (if chunk ≤ 0 then Word.signed64 machine.config.blockChunk else chunk) = settled
        at ran
      cases created : machine.blocks.create name (max length 0) settled with
      | ok answer =>
          rw [created] at ran
          cases ran
          exact NamedBlocks.create_finds created
      | error error =>
          rw [created] at ran
          cases ran

/-- A name that is known gives its block, unless that has to be resized and may not be. -/
theorem namedBlock_known (found : machine.blocks.find? name = some id)
    (listed : machine.blocks.get? id = some named) (length chunk : Int) :
    (namedBlock name length chunk machine).1
      = if named.accepts length chunk then .ok id else .error .blkfreeProtected := by
  rw [namedBlock, Effect.get_bind_run, found]
  dsimp only
  obtain ⟨accepted, refused⟩ := NamedBlocks.resize_listed listed length chunk
  split
  · rename_i accepts
    obtain ⟨blocks, resized⟩ := accepted accepts
    rw [Effect.bind_ok (onBlocks_ok resized)]
    rfl
  · rename_i accepts
    rw [Effect.bind_error (onBlocks_error (refused (eq_false_of_ne_true accepts)))]
    rfl

section Blk

variable {target : Value} {bytes : Bytes}

/-- Called with a text, `blk` goes by the name that the text is read as. -/
theorem blk_text (text : target.text? = some bytes) (settings : List Value) :
    blk (target :: settings)
      = blockSettings settings >>= fun (length, chunk) =>
          namedBlock (Text.decode bytes) length chunk >>= fun id =>
            pure (Value.ofNamedBlock id) := by
  obtain ⟨data, protection⟩ := target
  cases data with
  | text payload =>
      cases text
      rfl
  | _ => cases text

theorem blkfree_text (text : target.text? = some bytes) :
    blkfree [target]
      = onBlocks (fun blocks => blocks.freeByName (Text.decode bytes)) >>= fun _ =>
          pure Value.null := by
  obtain ⟨data, protection⟩ := target
  cases data with
  | text payload =>
      cases text
      rfl
  | _ => cases text

theorem blockSettings_run {settings : List Value} {machine : Machine}
    {answer : Except ErrorCode (Int × Int)} (read : (blockSettings settings machine).1 = answer) :
    blockSettings settings machine = (answer, machine) :=
  Prod.ext read (@blockSettings_upholds (· = machine) settings machine rfl).1

theorem counted_namedBlock {most : Nat} {body : List Value → BuiltinM Value} {arguments : List Value}
    {value : Value} (called : counted name 0 most body arguments machine = (.ok value, after))
    (given : value.data = .namedBlock id) : body arguments machine = (.ok value, after) := by
  rw [counted] at called
  split at called
  · cases called
  change settle (body arguments) machine = _ at called
  rw [settle] at called
  split at called
  · rename_i ran
    cases called
    exact ran
  · cases called
    cases given

end Blk

end Builtin

namespace Session

variable {session after : Session} {target : Value} {bytes : Bytes} {id : BlockId}

theorem call_blk_eq (session : Session) (arguments : List Value) :
    session.call "blk" arguments
      = ((Builtin.counted "blk" 0 3 Builtin.blk arguments session.machine).1,
          { session with
            machine := (Builtin.counted "blk" 0 3 Builtin.blk arguments session.machine).2 }) :=
  rfl

theorem call_blkfree_eq (session : Session) (target : Value) :
    (session.call "blkfree" [target]).2.machine
      = (Builtin.blkfree [target] session.machine).2 := by
  show (Builtin.settle (Builtin.blkfree [target]) session.machine).2 = _
  rw [Builtin.settle]
  split <;> rename_i ran <;> rw [ran]

/-- `blk` is called with a text of these bytes and answers the named block `id`. -/
def Names (session : Session) (bytes : Bytes) (id : BlockId) (after : Session) : Prop :=
  ∃ target settings value, target.text? = some bytes
    ∧ session.call "blk" (target :: settings) = (.ok value, after) ∧ value.data = .namedBlock id

theorem Names.found (names : session.Names bytes id after) :
    after.machine.blocks.find? (Text.decode bytes) = some id := by
  obtain ⟨target, settings, value, text, called, given⟩ := names
  rw [call_blk_eq, Prod.mk.injEq] at called
  obtain ⟨answered, rfl⟩ := called
  have ran := Builtin.counted_namedBlock (Effect.run_of_answer answered) given
  rw [Builtin.blk_text text] at ran
  obtain ⟨⟨length, chunk⟩, between, _, ran⟩ := Effect.steps_of_ok ran
  obtain ⟨present, last, named, ran⟩ := Effect.steps_of_ok ran
  cases ran
  cases given
  exact Builtin.namedBlock_finds named

theorem Names.performed (names : session.Names bytes id after) :
    ∃ request : Request, (request.perform session).2 = after := by
  obtain ⟨target, settings, value, _, called, _⟩ := names
  refine ⟨.builtin "blk" (target :: settings), ?_⟩
  rw [Request.perform, called]

/-- A call of `blk` answers a block that is known by name exactly if its text is read as that name. -/
theorem Names.eq_iff (names : session.Names bytes id after)
    (coherent : session.machine.blocks.Coherent) (few : session.machine.blocks.size < UInt32.size)
    {name : String} {known : BlockId} (found : session.machine.blocks.find? name = some known) :
    id = known ↔ Text.decode bytes = name := by
  have own := names.found
  obtain ⟨request, rfl⟩ := names.performed
  have kept := Request.perform_find? request found
  have bounded := Nat.le_trans (Request.perform_changes request session).size_le few
  constructor
  · rintro rfl
    exact (Request.perform_coherent request coherent).find?_inj bounded kept own
  · rintro rfl
    rw [own] at kept
    exact Option.some.inj kept

/-- `blk` is called with a text whose name is known. -/
theorem call_blk_known {named : NamedBlock} (text : target.text? = some bytes)
    (found : session.machine.blocks.find? (Text.decode bytes) = some id)
    (listed : session.machine.blocks.get? id = some named) {settings : List Value}
    (few : settings.length ≤ 2) {length chunk : Int}
    (read : (Builtin.blockSettings settings session.machine).1 = .ok (length, chunk)) :
    (session.call "blk" (target :: settings)).1
      = .ok (if named.accepts length chunk then Value.ofNamedBlock id
          else Value.ofError .blkfreeProtected) := by
  have answered := Builtin.namedBlock_known found listed length chunk
  rw [call_blk_eq, Builtin.counted_run (Nat.zero_le _) (Nat.succ_le_succ few), Builtin.settle,
    Builtin.blk_text text, Effect.bind_ok (Builtin.blockSettings_run read)]
  dsimp only
  split at answered
  · rename_i accepts
    rw [Effect.bind_ok (Effect.run_of_answer answered), if_pos accepts]
    rfl
  · rename_i refused
    rw [Effect.bind_error (Effect.run_of_answer answered), if_neg refused]

theorem call_blkfree_get? (coherent : session.machine.blocks.Coherent)
    (few : session.machine.blocks.size ≤ UInt32.size) {name : String} {named : NamedBlock}
    (found : session.machine.blocks.find? name = some id)
    (listed : session.machine.blocks.get? id = some named) (text : target.text? = some bytes) :
    (session.call "blkfree" [target]).2.machine.blocks.get? id
      = some (if Text.decode bytes = name then named.released else named) := by
  rw [call_blkfree_eq, Builtin.blkfree_text text, Effect.bind_state _ fun _ _ => rfl,
    Builtin.onBlocks_blocks]
  exact coherent.freeByName_get? few found listed _

end Session

/-- Along every run that makes no more blocks than there are handles, texts stand for the block that
`blk` answered exactly if they are read as the name that it was given for, in whichever builtin. Its
handle is answered for that name again, be it freed or not, unless it has to be resized and may not be.
Texts with other bytes are read as that name only where one of the two is malformed, and only if the
name has a U+FFFD. -/
theorem blocks_follow_names (config : Config) (host : Host) (history : List Request)
    {next : Session} {bytes : Bytes} {id : BlockId}
    (names : (Request.performAll history (Session.start config host)).Names bytes id next)
    (requests : List Request)
    (few : (Request.performAll requests next).machine.blocks.size < UInt32.size) :
    let later := Request.performAll requests next
    ∃ named, later.machine.blocks.get? id = some named
      ∧ (∀ other also after, later.Names other also after →
          (also = id ↔ Text.decode other = Text.decode bytes))
      ∧ (∀ target other, target.text? = some other →
          (later.call "blkfree" [target]).2.machine.blocks.get? id
            = some (if Text.decode other = Text.decode bytes then named.released else named))
      ∧ (∀ target settings length chunk, target.text? = some bytes → settings.length ≤ 2 →
          (Builtin.blockSettings settings later.machine).1 = .ok (length, chunk) →
          (later.call "blk" (target :: settings)).1
            = .ok (if named.accepts length chunk then Value.ofNamedBlock id
                else Value.ofError .blkfreeProtected))
      ∧ (∀ other, Text.WellFormed bytes → Text.WellFormed other →
          Text.decode other = Text.decode bytes → other = bytes)
      ∧ ((∀ other, Text.decode other = Text.decode bytes → other = bytes)
          ↔ Text.replacement ∉ (Text.decode bytes).toList) := by
  have found := Request.performAll_find? requests names.found
  have coherent : (Request.performAll requests next).machine.blocks.Coherent := by
    obtain ⟨request, rfl⟩ := names.performed
    apply Request.performAll_coherent
    exact Request.perform_coherent request (Request.performAll_start_coherent history config host)
  dsimp only
  generalize Request.performAll requests next = later at found coherent few ⊢
  have few' := Nat.le_of_lt few
  obtain ⟨named, listed, _⟩ := coherent.get?_of_find? few' found
  refine ⟨named, listed, ?_, ?_, ?_, ?_, Text.spelled_once_iff⟩
  · intro other also after again
    exact again.eq_iff coherent few found
  · intro target other text
    exact Session.call_blkfree_get? coherent few' found listed text
  · intro target settings length chunk text few read
    exact Session.call_blk_known text found listed few read
  · intro other formed also same
    exact formed.eq_of_decode also same

namespace Session

def nulName : Value := Value.ofText [0x61, 0, 0x62]

/-- A block with a NUL in its name is freed and answered again; what stands in front of the NUL is
another name. -/
theorem freed_block_is_named_again :
    let next := ((start {} (Host.initial none none)).call "blk" [nulName]).2
    let later := Request.performAll [.builtin "blkfree" [nulName]] next
    (start {} (Host.initial none none)).Names [0x61, 0, 0x62] ⟨0⟩ next
      ∧ later.machine.blocks.storage? ⟨0⟩ = none
      ∧ (later.call "blk" [nulName, Value.ofInt 5]).1 = .ok (Value.ofNamedBlock ⟨0⟩)
      ∧ ∀ also after, later.Names [0x61] also after → also ≠ ⟨0⟩ := by
  have names : (start {} (Host.initial none none)).Names [0x61, 0, 0x62] ⟨0⟩
      ((start {} (Host.initial none none)).call "blk" [nulName]).2 :=
    ⟨nulName, [], Value.ofNamedBlock ⟨0⟩, rfl, by with_unfolding_all rfl, rfl⟩
  have single : (Request.performAll [.builtin "blkfree" [nulName]]
      ((start {} (Host.initial none none)).call "blk" [nulName]).2).machine.blocks.size = 1 := by
    with_unfolding_all rfl
  have few : (Request.performAll [.builtin "blkfree" [nulName]]
      ((start {} (Host.initial none none)).call "blk" [nulName]).2).machine.blocks.size < UInt32.size := by
    rw [single]
    decide
  obtain ⟨named, listed, apart, _, again, _⟩ :=
    blocks_follow_names {} (Host.initial none none) [] names [.builtin "blkfree" [nulName]] few
  have freed : (Request.performAll [.builtin "blkfree" [nulName]]
      ((start {} (Host.initial none none)).call "blk" [nulName]).2).machine.blocks.get? ⟨0⟩
        = some ⟨String.ofList ['a', Char.ofNat 0, 'b'], ⟨0⟩, Protection.none, none⟩ := by
    with_unfolding_all rfl
  rw [freed] at listed
  cases listed
  refine ⟨names, ?_, ?_, ?_⟩
  · rw [NamedBlocks.storage?, freed]
    rfl
  · exact again nulName [Value.ofInt 5] 5 (-1) rfl (by decide) (by with_unfolding_all rfl)
  · intro also after other
    rw [ne_eq, apart _ _ _ other]
    decide +kernel

/-- Two texts of one byte, malformed both, stand for one block: it is freed by the one under which it
was not made. Once it is freed and may not be reallocated, it is not answered again. -/
theorem malformed_names_share_block :
    ∃ first second, (start {} (Host.initial none none)).Names [0xFF] ⟨0⟩ first
      ∧ first.Names [0xFE] ⟨0⟩ second ∧ ([0xFF] : Bytes) ≠ [0xFE]
      ∧ (second.machine.blocks.storage? ⟨0⟩).isSome = true
      ∧ (second.call "blkfree" [Value.ofText [0xFE]]).2.machine.blocks.storage? ⟨0⟩ = none
      ∧ ((Request.performAll [.builtin "blkfree" [Value.ofText [0xFE]],
          .onRegistry (.protect ⟨0⟩ Protection.noRealloc)] second).call "blk"
            [Value.ofText [0xFE]]).1 = .ok (Value.ofError .blkfreeProtected) := by
  refine ⟨((start {} (Host.initial none none)).call "blk" [Value.ofText [0xFF]]).2,
    (((start {} (Host.initial none none)).call "blk" [Value.ofText [0xFF]]).2.call "blk"
      [Value.ofText [0xFE]]).2, ?_, ?_, by decide, ?_, ?_, ?_⟩
  · exact ⟨Value.ofText [0xFF], [], Value.ofNamedBlock ⟨0⟩, rfl, by with_unfolding_all rfl, rfl⟩
  · exact ⟨Value.ofText [0xFE], [], Value.ofNamedBlock ⟨0⟩, rfl, by with_unfolding_all rfl, rfl⟩
  · with_unfolding_all rfl
  · with_unfolding_all rfl
  · with_unfolding_all rfl

end Session

end Calculator
