import Calculator.Proofs.RegistryStep
import Mathlib.Data.List.Nodup

/-!
# The chronicle of named blocks

A run of requests brings names into the registry one by one. The registry lists its entries in that
order, so the handle of a block is its place in the chronicle of the run; names are never used twice,
whatever was freed, and what is freed comes back as zeros.

The registry says each name twice, in the list and in the map, and each handle thrice. That they agree
is kept by every step. There are 2^32 handles: behind so many names they come again, and the map still
knows every name but two names have one handle.
-/

namespace Calculator

namespace NamedBlock

variable {named after : NamedBlock}

def label (named : NamedBlock) : String × BlockId :=
  (named.name, named.id)

theorem Change.label (change : named.Change after) : after.label = named.label := by
  cases change with
  | checked step => cases step <;> rfl
  | called stored call => rfl
  | reguarded protection => rfl

theorem revived_zeroed (length chunk : Int) :
    let block := (Block.allocate 0 chunk.toNat).resize (max length 0) chunk
    block.storage.toBytes = Bytes.zeros block.capacity := by
  obtain ⟨sound, shown⟩ := (Block.allocate_sound 0 chunk.toNat).resize (max length 0) chunk
  dsimp only
  generalize (Block.allocate 0 chunk.toNat).resize (max length 0) chunk = block at sound shown ⊢
  have empty : (Block.allocate 0 chunk.toNat).data = [] :=
    List.length_eq_zero_iff.mp (Block.data_length _)
  have data : block.data = Bytes.padTo [] block.length := by
    have reached := congrArg Block.View.data shown
    simp only [Block.view_data, Block.Call.change, empty] at reached
    have length := congrArg List.length reached
    rw [Block.data_length, Bytes.resized_length] at length
    rw [reached, ← length, Bytes.resized_of_le (Nat.zero_le _)]
  rw [sound.storage_eq, data, Bytes.padTo_padTo [] sound.inside, Bytes.padTo]
  rfl

theorem Change.zeroed (change : named.Change after) (freed : named.block = none) {block : Block}
    (stored : after.block = some block) :
    block.storage.toBytes = Bytes.zeros block.capacity := by
  cases change with
  | checked step =>
      cases step with
      | revived _ length chunk =>
          cases stored
          exact revived_zeroed length chunk
      | resized held | written held | filled held =>
          rw [freed] at held
          cases held
      | freed _ => cases stored
      | guarded bits =>
          rw [freed] at stored
          cases stored
  | called held call =>
      rw [freed] at held
      cases held
  | reguarded protection =>
      rw [freed] at stored
      cases stored

end NamedBlock

namespace NamedBlocks

def names (registry : NamedBlocks) : List String :=
  registry.blocks.map NamedBlock.name

def labels (registry : NamedBlocks) : List (String × BlockId) :=
  registry.blocks.map NamedBlock.label

/-- List and map are inverse to each other: an entry stores the handle of its place, no two entries have
one name, and the map leads from their names, and from no other, to the handles that they store. -/
structure Coherent (registry : NamedBlocks) : Prop where
  handles : ∀ place named, registry.blocks[place]? = some named → named.id = BlockId.ofPlace place
  distinct : registry.names.Nodup
  mapped : ∀ name id, registry.find? name = some id ↔ (name, id) ∈ registry.labels

variable {registry after : NamedBlocks} {asked : Option String} {name : String} {id : BlockId}
  {named : NamedBlock} {block : Block}

theorem labels_names (registry : NamedBlocks) : registry.labels.map Prod.fst = registry.names := by
  rw [labels, names, List.map_map]
  rfl

theorem mem_names_iff : name ∈ registry.names ↔ ∃ id, (name, id) ∈ registry.labels := by
  rw [← labels_names, List.mem_map]
  constructor
  · rintro ⟨⟨_, id⟩, member, rfl⟩
    exact ⟨id, member⟩
  · rintro ⟨id, member⟩
    exact ⟨(name, id), member, rfl⟩

section Added

theorem names_add : (registry.add name block).names = registry.names ++ [name] :=
  List.map_append

theorem labels_add :
    (registry.add name block).labels = registry.labels ++ [(name, registry.nextId)] :=
  List.map_append

theorem find?_add (wanted : String) :
    (registry.add name block).find? wanted
      = if wanted = name then some registry.nextId else registry.find? wanted := by
  rw [find?, add, List.lookup_cons]
  by_cases own : wanted = name
  · rw [if_pos own, own, beq_self_eq_true]
  · rw [if_neg own, beq_false_of_ne own, find?]

end Added

theorem labels_set {later : NamedBlock} (listed : registry.get? id = some named)
    (same : later.label = named.label) : (registry.set id later).labels = registry.labels := by
  obtain ⟨inside, here⟩ := List.getElem?_eq_some_iff.mp listed
  rw [labels, set, List.map_set, same, ← here, labels]
  apply List.ext_getElem
  · rw [List.length_set]
  · intro place _ _
    rw [List.getElem_set]
    split
    · subst_vars
      rw [List.getElem_map]
    · rfl

/-- Labels are added at the end, under the name asked for, and none is lost or changed. -/
theorem Moves.labels (moves : registry.Moves NamedBlock.Change asked after) :
    after.labels = registry.labels
      ∨ ∃ name, asked = some name ∧ registry.find? name = none
          ∧ after.labels = registry.labels ++ [(name, registry.nextId)] := by
  rcases moves with rfl | step
  · exact .inl rfl
  · cases step with
    | changed listed change => exact .inl (labels_set listed change.label)
    | created wanted unused length chunk => exact .inr ⟨_, wanted, unused, labels_add⟩

theorem Moves.find? (moves : registry.Moves NamedBlock.Change asked after)
    (found : registry.find? name = some id) : after.find? name = some id := by
  rcases moves with rfl | step
  · exact found
  · cases step with
    | changed listed change => exact found
    | @created added wanted unused length chunk =>
        have other : name ≠ added := by
          rintro rfl
          rw [found] at unused
          cases unused
        rw [find?_add, if_neg other, found]

namespace Coherent

theorem empty : NamedBlocks.empty.Coherent where
  handles := fun _ _ listed => nomatch listed
  distinct := List.nodup_nil
  mapped := fun _ _ => ⟨nofun, nofun⟩

variable (coherent : registry.Coherent)

include coherent

theorem find?_eq_none_iff : registry.find? name = none ↔ name ∉ registry.names := by
  rw [Option.eq_none_iff_forall_ne_some, mem_names_iff, not_exists]
  exact forall_congr' fun id => not_congr (coherent.mapped name id)

theorem find?_isSome_iff : (registry.find? name).isSome ↔ name ∈ registry.names := by
  rw [Option.isSome_iff_ne_none, ne_eq, coherent.find?_eq_none_iff, not_not]

theorem get?_id (listed : registry.get? id = some named) : named.id = id := by
  rw [coherent.handles id.place named listed, BlockId.ofPlace_place]

theorem find?_name (listed : registry.get? id = some named) :
    registry.find? named.name = some id := by
  rw [coherent.mapped, ← coherent.get?_id listed]
  exact List.mem_map_of_mem (List.mem_of_getElem? listed)

theorem find?_iff_place :
    registry.find? name = some id
      ↔ ∃ place, registry.names[place]? = some name ∧ id = BlockId.ofPlace place := by
  rw [coherent.mapped, labels, List.mem_map]
  constructor
  · rintro ⟨named, member, same⟩
    obtain ⟨place, listed⟩ := List.mem_iff_getElem?.mp member
    cases same
    refine ⟨place, ?_, coherent.handles place named listed⟩
    rw [names, List.getElem?_map, listed, Option.map_some]
  · rintro ⟨place, bears, rfl⟩
    rw [names, List.getElem?_map, Option.map_eq_some_iff] at bears
    obtain ⟨named, listed, rfl⟩ := bears
    refine ⟨named, List.mem_of_getElem? listed, ?_⟩
    rw [NamedBlock.label, coherent.handles place named listed]

theorem get?_of_find? (few : registry.size ≤ UInt32.size) (found : registry.find? name = some id) :
    ∃ named, registry.get? id = some named ∧ named.name = name := by
  obtain ⟨place, bears, rfl⟩ := coherent.find?_iff_place.mp found
  rw [names, List.getElem?_map, Option.map_eq_some_iff] at bears
  obtain ⟨named, listed, bears⟩ := bears
  have inside : place < registry.size := (List.getElem?_eq_some_iff.mp listed).1
  refine ⟨named, ?_, bears⟩
  rw [get?, BlockId.place_ofPlace (Nat.lt_of_lt_of_le inside few), listed]

theorem find?_eq_some_iff (few : registry.size ≤ UInt32.size) :
    registry.find? name = some id
      ↔ ∃ named, registry.get? id = some named ∧ named.name = name := by
  constructor
  · exact coherent.get?_of_find? few
  · rintro ⟨named, listed, rfl⟩
    exact coherent.find?_name listed

theorem add (unused : registry.find? name = none) (block : Block) :
    (registry.add name block).Coherent where
  handles := by
    intro place named listed
    rw [NamedBlocks.add, List.getElem?_append] at listed
    split at listed
    · exact coherent.handles place named listed
    · rw [List.getElem?_singleton] at listed
      split at listed
      · cases listed
        have last : place = registry.blocks.length := by omega
        rw [last]
        rfl
      · cases listed
  distinct := by
    rw [names_add, ← List.concat_eq_append]
    exact List.Nodup.concat (coherent.find?_eq_none_iff.mp unused) coherent.distinct
  mapped := by
    intro wanted id
    rw [find?_add, labels_add, List.mem_append, List.mem_singleton, Prod.mk.injEq,
      ← coherent.mapped]
    split
    · subst_vars
      rw [unused, Option.some.injEq]
      simp [eq_comm]
    · simp_all

theorem set {later : NamedBlock} (listed : registry.get? id = some named)
    (same : later.label = named.label) : (registry.set id later).Coherent where
  handles := by
    intro place other found
    rw [NamedBlocks.set, List.getElem?_set] at found
    split at found
    · rename_i here
      split at found
      · cases found
        have own := coherent.handles id.place named listed
        rw [← here, ← own]
        exact congrArg Prod.snd same
      · cases found
    · exact coherent.handles place other found
  distinct := by
    rw [← labels_names, labels_set listed same, labels_names]
    exact coherent.distinct
  mapped := by
    intro name id
    rw [labels_set listed same]
    exact coherent.mapped name id

theorem moves (moves : registry.Moves NamedBlock.Change asked after) : after.Coherent := by
  rcases moves with rfl | step
  · exact coherent
  · cases step with
    | created wanted unused length chunk => exact coherent.add unused _
    | changed listed change => exact coherent.set listed change.label

end Coherent

end NamedBlocks

namespace Request

/-- The name that a request brings into the registry: it asks for it, and the name is known
afterwards and was not before. -/
def born? (request : Request) (session : Session) : Option String :=
  request.askedName?.filter fun name =>
    (session.machine.blocks.find? name).isNone
      && ((request.perform session).2.machine.blocks.find? name).isSome

/-- The names that a run brings into the registry, one after the other. -/
def chronicle : List Request → Session → List String
  | [], _ => []
  | request :: rest, session =>
      (request.born? session).toList ++ chronicle rest (request.perform session).2

variable {session : Session}

theorem perform_coherent (request : Request) (coherent : session.machine.blocks.Coherent) :
    (request.perform session).2.machine.blocks.Coherent :=
  coherent.moves (perform_changes request session)

theorem performAll_coherent (requests : List Request) (coherent : session.machine.blocks.Coherent) :
    (performAll requests session).machine.blocks.Coherent := by
  induction requests generalizing session with
  | nil => exact coherent
  | cons request rest ih => exact ih (perform_coherent request coherent)

theorem performAll_start_coherent (requests : List Request) (config : Config) (host : Host) :
    (performAll requests (Session.start config host)).machine.blocks.Coherent :=
  performAll_coherent requests NamedBlocks.Coherent.empty

theorem perform_names (request : Request) (coherent : session.machine.blocks.Coherent) :
    (request.perform session).2.machine.blocks.names
      = session.machine.blocks.names ++ (request.born? session).toList := by
  have after := perform_coherent request coherent
  rcases (perform_changes request session).labels with same | ⟨name, asked, unused, grown⟩
  · have listed : (request.perform session).2.machine.blocks.names
        = session.machine.blocks.names := by
      rw [← NamedBlocks.labels_names, same, NamedBlocks.labels_names]
    have none : request.born? session = none := by
      rw [born?, Option.filter_eq_none_iff]
      intro name _ born
      rw [Bool.and_eq_true_iff, Option.isNone_iff_eq_none, coherent.find?_eq_none_iff,
        after.find?_isSome_iff, listed] at born
      exact born.1 born.2
    rw [listed, none, Option.toList_none, List.append_nil]
  · have listed : (request.perform session).2.machine.blocks.names
        = session.machine.blocks.names ++ [name] := by
      rw [← NamedBlocks.labels_names, grown, List.map_append, NamedBlocks.labels_names]
      rfl
    have one : request.born? session = some name := by
      rw [born?, Option.filter_eq_some_iff, Bool.and_eq_true_iff, Option.isNone_iff_eq_none,
        after.find?_isSome_iff, listed]
      exact ⟨asked, unused, List.mem_append_right _ List.mem_cons_self⟩
    rw [listed, one, Option.toList_some]

theorem performAll_names (requests : List Request) (coherent : session.machine.blocks.Coherent) :
    (performAll requests session).machine.blocks.names
      = session.machine.blocks.names ++ chronicle requests session := by
  induction requests generalizing session with
  | nil => exact (List.append_nil _).symm
  | cons request rest ih =>
      have reached := ih (perform_coherent request coherent)
      rw [chronicle, ← List.append_assoc, ← perform_names request coherent]
      exact reached

/-- An entry keeps its place, its name and its handle along every run. -/
theorem performAll_keeps_label (requests : List Request) {id : BlockId} {named : NamedBlock}
    (listed : session.machine.blocks.get? id = some named) :
    ∃ kept, (performAll requests session).machine.blocks.get? id = some kept
      ∧ kept.label = named.label := by
  induction requests generalizing session named with
  | nil => exact ⟨named, listed, rfl⟩
  | cons request rest ih =>
      obtain ⟨next, reached, same⟩ := (perform_changes request session).get? listed
      obtain ⟨kept, found, label⟩ := ih reached
      refine ⟨kept, found, label.trans ?_⟩
      rcases same with rfl | change
      · rfl
      · exact change.label

end Request

namespace NamedBlocks

/-- The registry lists the names that ever came into it, in their order. A handle is known for a name
exactly if a block bears both, and as long as there is a handle for each name, that is the block of the
handle. -/
structure Chronicled (registry : NamedBlocks) (chronicle : List String) : Prop where
  listed : registry.names = chronicle
  distinct : chronicle.Nodup
  handles : ∀ place named, registry.blocks[place]? = some named → named.id = BlockId.ofPlace place
  numbered : ∀ id named, registry.get? id = some named →
    named.id = id ∧ chronicle[id.place]? = some named.name
  found : ∀ name id, registry.find? name = some id
    ↔ ∃ place, chronicle[place]? = some name ∧ id = BlockId.ofPlace place
  borne : ∀ name id, registry.find? name = some id
    ↔ ∃ named ∈ registry.blocks, named.name = name ∧ named.id = id
  inverse : chronicle.length ≤ UInt32.size → ∀ name id, registry.find? name = some id
    ↔ ∃ named, registry.get? id = some named ∧ named.name = name
  refused : ∀ name ∈ chronicle, ∀ length chunk,
    registry.create name length chunk = .error (.nameExists name)
  next : ∀ name ∉ chronicle, ∀ length chunk, 0 ≤ length → 0 ≤ chunk →
    ∃ after, registry.create name length chunk = .ok (BlockId.ofPlace chronicle.length, after)
      ∧ after.names = chronicle ++ [name]

theorem Coherent.chronicled {registry : NamedBlocks} (coherent : registry.Coherent) :
    registry.Chronicled registry.names where
  listed := rfl
  distinct := coherent.distinct
  handles := coherent.handles
  numbered := by
    intro id named listed
    refine ⟨coherent.get?_id listed, ?_⟩
    rw [names, List.getElem?_map, ← NamedBlocks.get?, listed, Option.map_some]
  found := fun _ _ => coherent.find?_iff_place
  borne := by
    intro name id
    rw [coherent.mapped, labels, List.mem_map]
    refine exists_congr fun named => and_congr_right fun _ => ?_
    rw [NamedBlock.label, Prod.mk.injEq]
  inverse := by
    intro few name id
    rw [names, List.length_map] at few
    exact coherent.find?_eq_some_iff few
  refused := by
    intro name used length chunk
    rw [create, if_pos (coherent.find?_isSome_iff.mpr used)]
  next := by
    intro name unused length chunk measured chunked
    have unknown : ¬(registry.find? name).isSome := mt coherent.find?_isSome_iff.mp unused
    rw [create, if_neg unknown, if_neg (Int.not_lt.mpr measured), if_neg (Int.not_lt.mpr chunked)]
    refine ⟨registry.add name (Block.allocate length.toNat chunk.toNat), ?_, names_add⟩
    rw [nextId, names, List.length_map]

end NamedBlocks

/-- Handles count creations, in whatever way a run of requests mixes them with failures, freeing and
reallocation. Names are used once, and stay with their handles; storage that is given back is zero. -/
theorem registry_follows_chronicle (config : Config) (host : Host)
    (requests later : List Request) :
    let session := Request.performAll requests (Session.start config host)
    let names := Request.chronicle requests (Session.start config host)
    session.machine.blocks.Chronicled names
      ∧ (∀ name ∈ names, ∀ length chunk,
          (Request.onRegistry (.create name length chunk)).perform session = (none, session))
      ∧ (∀ id named, session.machine.blocks.get? id = some named →
          ∃ kept, (Request.performAll later session).machine.blocks.get? id = some kept
            ∧ kept.name = named.name ∧ kept.id = named.id)
      ∧ ∀ (request : Request) (id : BlockId) (freed revived : NamedBlock) (block : Block),
          session.machine.blocks.get? id = some freed → freed.block = none →
          (request.perform session).2.machine.blocks.get? id = some revived →
          revived.block = some block → block.storage.toBytes = Bytes.zeros block.capacity := by
  have coherent := Request.performAll_start_coherent requests config host
  have listed : (Request.performAll requests (Session.start config host)).machine.blocks.names
      = Request.chronicle requests (Session.start config host) :=
    Request.performAll_names requests NamedBlocks.Coherent.empty
  have chronicled := coherent.chronicled
  dsimp only
  rw [← listed]
  refine ⟨chronicled, ?_, ?_, ?_⟩
  · intro name used length chunk
    simp only [Request.perform, RegistryCall.perform, chronicled.refused name used length chunk,
      Except.map]
  · intro id named known
    obtain ⟨kept, reached, label⟩ := Request.performAll_keeps_label later known
    exact ⟨kept, reached, congrArg Prod.fst label, congrArg Prod.snd label⟩
  · intro request id freed revived block known empty reached stored
    obtain ⟨entry, found, same | change⟩ := (Request.perform_changes request _).get? known
    all_goals
      rw [reached] at found
      cases found
    · rw [same, empty] at stored
      cases stored
    · exact change.zeroed empty stored

namespace Request

def twoNames : List Request :=
  [.onRegistry (.create "a" 1 0), .onRegistry (.create "b" 2 0), .onRegistry (.free ⟨0⟩),
    .onRegistry (.create "a" 3 0)]

/-- The map leads to the second block by its name, and the first keeps its own. -/
theorem second_name_is_found :
    let session := performAll twoNames (Session.start {} (Host.initial none none))
    chronicle twoNames (Session.start {} (Host.initial none none)) = ["a", "b"]
      ∧ session.machine.blocks.find? "b" = some ⟨1⟩
      ∧ session.machine.blocks.storage? ⟨0⟩ = none
      ∧ session.machine.blocks.create "a" 3 0 = .error (.nameExists "a") := by
  have names : chronicle twoNames (Session.start {} (Host.initial none none)) = ["a", "b"] := rfl
  obtain ⟨chronicled, _⟩ := registry_follows_chronicle {} (Host.initial none none) twoNames []
  rw [names] at chronicled
  refine ⟨names, ?_, rfl, chronicled.refused "a" List.mem_cons_self 3 0⟩
  exact (chronicled.inverse (by decide) "b" ⟨1⟩).mpr ⟨_, rfl, rfl⟩

end Request

end Calculator
