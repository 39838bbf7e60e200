import Calculator.Proofs.BlockRun
import Calculator.Proofs.Gateway
import Calculator.Value.Ownership

/-!
# Blocks within reach

A value holds blocks, at any depth, and the registry holds the named ones. Copying and filling change
blocks by calls only, so that what a machine can reach was built if what it was given was built.
-/

namespace Calculator

mutual

def Value.blocks : Value → List Block
  | ⟨data, _⟩ => Value.blocksOfData data
termination_by structural value => value

def Value.blocksOfData : Data Value → List Block
  | .block block => [block]
  | .matrix _ slots => Value.blocksOfList slots
  | .list items => Value.blocksOfList items
  | .association entries => Value.blocksOfEntries entries
  | _ => []
termination_by structural data => data

def Value.blocksOfList : List Value → List Block
  | [] => []
  | value :: rest => Value.blocks value ++ Value.blocksOfList rest
termination_by structural values => values

def Value.blocksOfEntries : List (List Value × Value) → List Block
  | [] => []
  | entry :: rest => Value.blocksOfEntry entry ++ Value.blocksOfEntries rest
termination_by structural entries => entries

def Value.blocksOfEntry : List Value × Value → List Block
  | (key, value) => Value.blocksOfList key ++ Value.blocks value
termination_by structural entry => entry

end

mutual

theorem Value.blocks_place (next : Mark) (value : Value) :
    (value.place next).1.blocks = value.blocks := by
  match value with
  | ⟨data, protection⟩ =>
      rw [Value.place, Value.blocks, Value.blocks]
      exact Value.blocksOfData_place next data
termination_by structural value

theorem Value.blocksOfData_place (next : Mark) (data : Data Value) :
    Value.blocksOfData (Value.placeData next data).1 = Value.blocksOfData data := by
  match data with
  | .matrix _ slots => exact Value.blocksOfList_place next slots
  | .list items => exact Value.blocksOfList_place next items
  | .association entries => exact Value.blocksOfEntries_place next entries
  | .null | .number _ | .complex _ _ | .text _ | .block _ | .namedBlock _ | .octet _ _ | .file _
  | .error _ => rfl
termination_by structural data

theorem Value.blocksOfList_place (next : Mark) (values : List Value) :
    Value.blocksOfList (Value.placeList next values).1 = Value.blocksOfList values := by
  match values with
  | [] => rfl
  | value :: rest =>
      rw [Value.placeList, Value.blocksOfList, Value.blocksOfList]
      congr 1
      · exact Value.blocks_place next value
      · exact Value.blocksOfList_place _ rest
termination_by structural values

theorem Value.blocksOfEntries_place (next : Mark) (entries : List (List Value × Value)) :
    Value.blocksOfEntries (Value.placeEntries next entries).1 = Value.blocksOfEntries entries := by
  match entries with
  | [] => rfl
  | entry :: rest =>
      rw [Value.placeEntries, Value.blocksOfEntries, Value.blocksOfEntries]
      congr 1
      · exact Value.blocksOfEntry_place next entry
      · exact Value.blocksOfEntries_place _ rest
termination_by structural entries

theorem Value.blocksOfEntry_place (next : Mark) (entry : List Value × Value) :
    Value.blocksOfEntry (Value.placeEntry next entry).1 = Value.blocksOfEntry entry := by
  match entry with
  | (key, value) =>
      rw [Value.placeEntry, Value.blocksOfEntry, Value.blocksOfEntry]
      congr 1
      · exact Value.blocksOfList_place next key
      · exact Value.blocks_place _ value
termination_by structural entry

end

mutual

theorem Value.blocks_visit (visit : Visit) (value : Value) :
    (value.visit visit).blocks = value.blocks := by
  match value with
  | ⟨data, protection⟩ =>
      rw [Value.visit, Value.blocks, Value.blocks]
      exact Value.blocksOfData_visit visit data
termination_by structural value

theorem Value.blocksOfData_visit (visit : Visit) (data : Data Value) :
    Value.blocksOfData (Value.visitData visit data) = Value.blocksOfData data := by
  match data with
  | .matrix _ slots => exact Value.blocksOfList_visit visit slots
  | .list items => exact Value.blocksOfList_visit visit items
  | .association entries => exact Value.blocksOfEntries_visit visit entries
  | .null | .number _ | .complex _ _ | .text _ | .block _ | .namedBlock _ | .octet _ _ | .file _
  | .error _ => rfl
termination_by structural data

theorem Value.blocksOfList_visit (visit : Visit) (values : List Value) :
    Value.blocksOfList (Value.visitList visit values) = Value.blocksOfList values := by
  match values with
  | [] => rfl
  | value :: rest =>
      rw [Value.visitList, Value.blocksOfList, Value.blocksOfList]
      congr 1
      · exact Value.blocks_visit visit value
      · exact Value.blocksOfList_visit visit rest
termination_by structural values

theorem Value.blocksOfEntries_visit (visit : Visit) (entries : List (List Value × Value)) :
    Value.blocksOfEntries (Value.visitEntries visit entries) = Value.blocksOfEntries entries := by
  match entries with
  | [] => rfl
  | entry :: rest =>
      rw [Value.visitEntries, Value.blocksOfEntries, Value.blocksOfEntries]
      congr 1
      · exact Value.blocksOfEntry_visit visit entry
      · exact Value.blocksOfEntries_visit visit rest
termination_by structural entries

theorem Value.blocksOfEntry_visit (visit : Visit) (entry : List Value × Value) :
    Value.blocksOfEntry (Value.visitEntry visit entry) = Value.blocksOfEntry entry := by
  match entry with
  | (key, value) =>
      rw [Value.visitEntry, Value.blocksOfEntry, Value.blocksOfEntry]
      congr 1
      · exact Value.blocksOfList_visit visit key
      · exact Value.blocks_visit visit value
termination_by structural entry

end

namespace Value

def Built (value : Value) : Prop :=
  ∀ block ∈ value.blocks, block.Built

theorem blocksOfList_eq (values : List Value) : blocksOfList values = values.flatMap blocks := by
  induction values with
  | nil => rfl
  | cons value rest ih => rw [blocksOfList, ih, List.flatMap_cons]

theorem blocks_eq (value : Value) : value.blocks = blocksOfData value.data := by
  cases value
  rfl

theorem built_of_none {value : Value} (none : blocksOfData value.data = []) : value.Built := by
  intro block within
  rw [blocks_eq, none] at within
  cases within

theorem built_of_block {value : Value} {block : Block} (held : value.data = .block block) :
    value.Built ↔ block.Built := by
  rw [Built, blocks_eq, held, blocksOfData]
  exact List.forall_mem_singleton

theorem built_of_container {value : Value} {slots : List Value}
    (held : blocksOfData value.data = blocksOfList slots) :
    value.Built ↔ ∀ slot ∈ slots, slot.Built := by
  rw [Built, blocks_eq, held, blocksOfList_eq]
  simp only [List.mem_flatMap]
  constructor
  · intro all slot member block within
    exact all block ⟨slot, member, within⟩
  · rintro all block ⟨slot, member, within⟩
    exact all slot member block within

theorem Built.protect {value : Value} (built : value.Built) (bits : Protection) :
    (value.protect bits).Built := by
  rw [Built, blocks_eq] at built ⊢
  exact built

end Value

namespace NamedBlocks

def Built (registry : NamedBlocks) : Prop :=
  ∀ named ∈ registry.blocks, ∀ block, named.block = some block → block.Built

variable {registry : NamedBlocks}

theorem Built.storage? (built : registry.Built) {id : BlockId} {block : Block}
    (stored : registry.storage? id = some block) : block.Built := by
  obtain ⟨named, listed, held⟩ := Option.bind_eq_some_iff.mp stored
  exact built named (List.mem_of_getElem? listed) block held

theorem Built.modify (built : registry.Built) (number : Nat) {change : NamedBlock → NamedBlock}
    (changed : ∀ named block, named ∈ registry.blocks → (change named).block = some block →
      block.Built) : Built { registry with blocks := registry.blocks.modify number change } := by
  intro named listed block held
  obtain ⟨place, found⟩ := List.mem_iff_getElem?.mp listed
  rw [List.getElem?_modify] at found
  obtain ⟨old, present, same⟩ := Option.map_eq_some_iff.mp found
  have member := List.mem_of_getElem? present
  split at same
  · rw [← same] at held
    exact changed old block member held
  · rw [← same] at held
    exact built old member block held

theorem Built.setStorage (built : registry.Built) (id : BlockId) {block : Option Block}
    (stored : ∀ new, block = some new → new.Built) : (registry.setStorage id block).Built :=
  built.modify id.place fun _ new _ held => stored new held

theorem Built.setProtection (built : registry.Built) {id : BlockId} {named : NamedBlock}
    (listed : registry.get? id = some named) (protection : Protection) :
    (registry.set id { named with protection }).Built := by
  intro other present block held
  rcases List.mem_or_eq_of_mem_set present with old | rfl
  · exact built other old block held
  · exact built named (List.mem_of_getElem? listed) block held

theorem Built.create (built : registry.Built) {name : String} {length chunk : Int}
    {answer : BlockId × NamedBlocks} (created : registry.create name length chunk = .ok answer) :
    answer.2.Built := by
  unfold NamedBlocks.create at created
  split at created
  · cases created
  split at created
  · cases created
  split at created
  · cases created
  cases created
  intro named listed block held
  rcases List.mem_append.mp listed with old | new
  · exact built named old block held
  · rw [List.mem_singleton.mp new] at held
    cases held
    exact Block.Origin.built (.allocate length.toNat chunk.toNat)

def Keeps (operation : NamedBlocks → Except BlockError NamedBlocks) : Prop :=
  ∀ registry after, registry.Built → operation registry = .ok after → after.Built

theorem resize_keeps (id : BlockId) (length chunk : Int) :
    Keeps fun registry => registry.resize id length chunk := by
  intro registry after built resized
  dsimp only [NamedBlocks.resize] at resized
  split at resized
  · cases resized
  · rename_i named listed
    have member := List.mem_of_getElem? listed
    split at resized
    · split at resized
      · rename_i block held
        cases resized
        apply built.setStorage
        intro new stored
        cases stored
        exact (built named member block held).perform (.resize length chunk)
      · cases resized
        apply built.setStorage
        intro new stored
        cases stored
        exact (Block.Origin.built (.allocate 0 chunk.toNat)).perform (.resize (max length 0) chunk)
    · split at resized
      · cases resized
        exact built
      · cases resized

theorem free_keeps (id : BlockId) : Keeps fun registry => registry.free id := by
  intro registry after built freed
  dsimp only [NamedBlocks.free] at freed
  split at freed
  · cases freed
  · split at freed
    · cases freed
      exact built
    · split at freed
      · cases freed
        exact built.setStorage id fun _ none => nomatch none
      · cases freed

theorem freeByName_keeps (name : String) : Keeps fun registry => registry.freeByName name := by
  intro registry after built freed
  dsimp only [NamedBlocks.freeByName] at freed
  split at freed
  · exact free_keeps _ registry after built freed
  · cases freed

theorem protect_keeps (id : BlockId) (bits : Protection) :
    Keeps fun registry => registry.protect id bits := by
  intro registry after built guarded
  dsimp only [NamedBlocks.protect] at guarded
  split at guarded
  · cases guarded
  · rename_i named listed
    cases guarded
    exact built.setProtection listed _

end NamedBlocks

def Machine.Built (machine : Machine) : Prop :=
  machine.blocks.Built

namespace Copy

open Effect (Upholds)

theorem onFiles_upholds {α : Type} (id : FileId) (wrap : FileError → CopyError)
    (operation : FileM α) : Upholds Machine.Built (onFiles id wrap operation) fun _ => True :=
  fun _ built => ⟨built, fun _ _ => trivial⟩

theorem changeBlock_upholds {destination : Value} (given : destination.Built)
    {change : Block → Bool → Except CopyError Block}
    (builds : ∀ block canGrow new, block.Built → change block canGrow = .ok new → new.Built) :
    Upholds Machine.Built (changeBlock destination change) Value.Built := by
  unfold changeBlock
  dsimp only
  split
  · rename_i block held
    have built := (Value.built_of_block held).mp given
    apply Upholds.lift_bind
    intro changed made
    exact Upholds.pure ((Value.built_of_block rfl).mpr (builds block _ changed built made))
  · rename_i id held
    apply Upholds.get_bind
    intro machine built
    split
    · exact Upholds.throw _
    · rename_i named listed
      split
      · exact Upholds.throw _
      · rename_i block stored
        have old := built named (List.mem_of_getElem? listed) block stored
        apply Upholds.lift_bind
        intro changed made
        have kept : Machine.Built
            { machine with blocks := machine.blocks.setStorage id (some changed) } := by
          apply NamedBlocks.Built.setStorage built
          intro other stored
          cases stored
          exact builds block _ changed old made
        exact Upholds.bind_any (Upholds.set kept) fun _ => Upholds.pure given
  · exact Upholds.throw _

theorem intoBlock_upholds {destination : Value} (given : destination.Built) (bytes : Bytes)
    (position : Int) : Upholds Machine.Built (intoBlock destination bytes position) Value.Built :=
  changeBlock_upholds given fun _ _ _ built stored => built.stored stored

/-- Elements of a copy are slots of the source, or small numbers. -/
theorem elements_each {good : Value → Prop} {blocks : NamedBlocks} {source : Value} {start : Nat}
    {count : Int} {values : List Value}
    (slot : ∀ slots, (∃ bounds, source.data = .matrix bounds slots) ∨ source.data = .list slots →
      ∀ value ∈ slots, good value)
    (byte : ∀ number, good (Value.ofInt number))
    (selected : elements blocks source start count = .ok values) : ∀ value ∈ values, good value := by
  intro value member
  unfold elements at selected
  split at selected
  · rename_i bounds slots held
    cases selected
    exact slot slots (.inl ⟨bounds, held⟩) value (List.mem_of_mem_drop (List.mem_of_mem_take member))
  · rename_i items held
    cases selected
    exact slot items (.inr held) value (List.mem_of_mem_drop (List.mem_of_mem_take member))
  · cases held : blockOf blocks source with
    | error error =>
        rw [held] at selected
        cases selected
    | ok block =>
        rw [held] at selected
        cases selected
        obtain ⟨octet, _, rfl⟩ := List.mem_map.mp member
        exact byte _

theorem elements_built {blocks : NamedBlocks} {source : Value} (given : source.Built) {start : Nat}
    {count : Int} {values : List Value} (selected : elements blocks source start count = .ok values) :
    ∀ value ∈ values, value.Built := by
  refine elements_each ?_ (fun _ => Value.built_of_none rfl) selected
  rintro slots (⟨bounds, held⟩ | held)
  · exact (Value.built_of_container (by rw [held, Value.blocksOfData])).mp given
  · exact (Value.built_of_container (by rw [held, Value.blocksOfData])).mp given

/-- Slots of the result are old slots, or elements with the protection of a slot added. -/
theorem intoSlots_each {good : Value → Prop} (protect : ∀ value bits, good value → good (value.protect bits))
    {slots values result : List Value} {position : Int} (old : ∀ slot ∈ slots, good slot)
    (new : ∀ value ∈ values, good value) (placed : intoSlots slots values position = .ok result) :
    ∀ slot ∈ result, good slot := by
  intro slot member
  unfold intoSlots at placed
  dsimp only at placed
  split at placed
  · cases placed
  · cases placed
    rcases List.mem_append.mp member with front | rest
    · rcases List.mem_append.mp front with first | middle
      · exact old slot (List.mem_of_mem_take first)
      · rw [← List.map_uncurry_zip_eq_zipWith] at middle
        obtain ⟨⟨own, value⟩, both, rfl⟩ := List.mem_map.mp middle
        exact protect value own.protection (new value (List.of_mem_zip both).2)
    · exact old slot (List.mem_of_mem_drop rest)

theorem fileIntoBlock_upholds (id : FileId) (start : Nat) (count : Int) {destination : Value}
    (given : destination.Built) (position : Int) :
    Upholds Machine.Built (fileIntoBlock id start count destination position) Value.Built := by
  unfold fileIntoBlock
  dsimp only
  split
  · exact Upholds.throw_bind _ _
  apply Upholds.bind_any (onFiles_upholds _ _ _)
  intro size
  split
  · exact Upholds.throw_bind _ _
  split
  · exact Upholds.pure given
  apply Upholds.bind_any (onFiles_upholds _ _ _)
  intro _
  apply Upholds.bind_any (onFiles_upholds _ _ _)
  intro bytes
  split
  · exact Upholds.throw_bind _ _
  · exact intoBlock_upholds given bytes position

theorem intoFile_upholds (id : FileId) (bytes : Bytes) (position : Int) :
    Upholds Machine.Built (intoFile id bytes position) fun _ => True := by
  have written : Upholds Machine.Built
      (onFiles id .shortWrite (Files.write id bytes) >>= fun _ =>
        onFiles id .shortWrite (Files.flush id)) fun _ => True :=
    Upholds.bind_any (onFiles_upholds _ _ _) fun _ => onFiles_upholds _ _ _
  unfold intoFile
  dsimp only
  split
  · exact Upholds.throw_bind _ _
  split
  · exact Upholds.bind_any (onFiles_upholds _ _ _) fun _ => written
  · exact written

/-- What a route brings may be nothing, and the destination stays as it is. -/
theorem lift_bind_upholds {α : Type} {invariant : Machine → Prop} {promised : Value → Prop}
    (answer : Except CopyError (List α)) {destination : Value} (given : promised destination)
    {next : List α → CopyM Value}
    (continued : ∀ units, answer = .ok units → Upholds invariant (next units) promised) :
    Upholds invariant
      (liftM answer >>= fun units => if units.isEmpty then pure destination else next units)
      promised := by
  apply Upholds.lift_bind
  intro units made
  split
  · exact Upholds.pure given
  · exact continued units made

theorem route_upholds {source destination : Value} (held : source.Built) (given : destination.Built)
    (start : Nat) (count position : Int) (exclusive : Bool) :
    Upholds Machine.Built (route source start count destination position exclusive) Value.Built := by
  unfold route
  apply Upholds.get_bind
  intro machine _
  dsimp only
  split
  · exact lift_bind_upholds _ given fun _ _ => Upholds.pure (Value.built_of_none rfl)
  · exact lift_bind_upholds _ given fun _ _ => Upholds.pure (Value.built_of_none rfl)
  · rename_i id target
    apply lift_bind_upholds _ given
    intro bytes _
    exact Upholds.bind_any (intoFile_upholds id bytes position) fun _ => Upholds.pure given
  · rename_i bounds slots target
    have old := (Value.built_of_container (by rw [target, Value.blocksOfData])).mp given
    apply lift_bind_upholds _ given
    intro values selected
    apply Upholds.lift_bind
    intro result placed
    have all := intoSlots_each (fun _ bits built => Value.Built.protect built bits) old
      (elements_built held selected) placed
    exact Upholds.pure ((Value.built_of_container rfl).mpr all)
  · rename_i items target
    have old := (Value.built_of_container (by rw [target, Value.blocksOfData])).mp given
    apply lift_bind_upholds _ given
    intro values selected
    apply Upholds.lift_bind
    intro result placed
    have all := intoSlots_each (fun _ bits built => Value.Built.protect built bits) old
      (elements_built held selected) placed
    exact Upholds.pure ((Value.built_of_container rfl).mpr all)
  · split
    · exact fileIntoBlock_upholds _ start count given position
    · exact lift_bind_upholds _ given fun bytes _ => intoBlock_upholds given bytes position

theorem copy_upholds {source destination : Value} (held : source.Built) (given : destination.Built)
    (start count position : Int) (exclusive : Bool) :
    Upholds Machine.Built (copy source start count destination position exclusive) Value.Built := by
  intro machine built
  rw [copy_run]
  split
  · exact route_upholds held given start.toNat count position exclusive machine built
  · exact Upholds.throw _ machine built

theorem fill_upholds {destination : Value} (given : destination.Built) (byte : UInt8)
    (count start : Int) : Upholds Machine.Built (fill destination byte count start) Value.Built := by
  rw [fill_eq]
  apply Upholds.get_bind
  intro machine _
  apply Upholds.lift_bind
  intro _ _
  split
  · exact Upholds.throw_bind _ _
  · apply changeBlock_upholds given
    intro block _ new built made
    cases made
    exact built.perform (.fill byte start.toNat _)

end Copy

end Calculator
