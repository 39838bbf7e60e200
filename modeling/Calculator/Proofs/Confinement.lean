import Calculator.Proofs.Outline

/-!
# Blocks that are not copied from

Two machines that differ in nothing but the bytes of one named block are told apart by a copy only if
it brings one of these bytes elsewhere. Where the block is protected against being copied from, no copy
does so but one of a matrix into another block: what an element of the matrix stands for is looked up
without regard to protection.
-/

namespace Calculator.Copy

section Admission

variable {id : BlockId} {left right : NamedBlocks} (same : left.SameBut id right)

include same

theorem checkSourceBlock_eq (other : BlockId) :
    checkSourceBlock left other = checkSourceBlock right other := by
  unfold checkSourceBlock
  rcases same.lookup other with ⟨absent, missing⟩ | ⟨first, second, listed, present, _, bits, storage⟩
  · rw [absent, missing]
  · have freed := congrArg Option.isNone storage
    rw [Option.isNone_map, Option.isNone_map] at freed
    simp only [listed, present, bits, freed]

theorem checkDestinationBlock_eq (other : BlockId) :
    checkDestinationBlock left other = checkDestinationBlock right other := by
  unfold checkDestinationBlock
  rcases same.lookup other with ⟨absent, missing⟩ | ⟨first, second, listed, present, _, bits, storage⟩
  · rw [absent, missing]
  · have freed := congrArg Option.isNone storage
    rw [Option.isNone_map, Option.isNone_map] at freed
    simp only [listed, present, bits, freed]

theorem permit_eq (source : Value) (start : Int) (destination : Value) :
    permit left source start destination = permit right source start destination := by
  simp only [permit, checkProtection, checkSourceBlock_eq same, checkDestinationBlock_eq same]

theorem mayGrow_eq (destination : Value) : mayGrow left destination = mayGrow right destination := by
  unfold mayGrow
  cases destinationBlock? destination with
  | none => rfl
  | some other =>
      rcases same.lookup other with ⟨absent, missing⟩ | ⟨first, second, listed, present, _, bits, _⟩
      · simp only [absent, missing]
      · simp only [listed, present, Option.all_some, bits]

end Admission

/-- A block that is protected against being copied from is the source of no admitted copy. -/
theorem admitted_source {machine : Machine} {source destination : Value} {start : Int}
    (admitted : permit machine.blocks source start destination = .ok ()) {id : BlockId}
    {named : NamedBlock} (listed : machine.blocks.get? id = some named)
    (barred : named.protection.contains Protection.noCopyFrom = true) :
    sourceBlock? source ≠ some id := by
  intro reads
  have checked := (permit_checks.mp admitted).1
  simp only [checkProtection, reads, checkSourceBlock, listed, barred, if_true] at checked
  by_cases own : source.protection.contains Protection.noCopyFrom = true
  · rw [if_pos own] at checked
    cases checked
  · rw [if_neg own] at checked
    by_cases closed : destination.protection.contains Protection.noCopyTo = true
    · rw [if_pos closed] at checked
      cases checked
    · rw [if_neg closed] at checked
      cases checked

/-- The byte of a named block that an element stands for. -/
def byteRead? (id : BlockId) (element : Value) : Option Nat :=
  match element.data with
  | .octet (.namedBlock other) index => if other = id then some index else none
  | .namedBlock other => if other = id then some 0 else none
  | _ => none

/-- A byte of a named block; zero past the end and where there is no block. -/
def byteOf (blocks : NamedBlocks) (id : BlockId) (index : Nat) : UInt8 :=
  match blocks.storage? id with
  | some block => block.byteAt index
  | none => 0

theorem octetOf_read {id : BlockId} {element : Value} {index : Nat}
    (read : byteRead? id element = some index) (blocks : NamedBlocks) :
    octetOf blocks element = byteOf blocks id index := by
  unfold byteRead? at read
  split at read
  · rename_i other place shape
    by_cases own : other = id
    · rw [if_pos own] at read
      cases read
      rw [octetOf, shape, own]
      rfl
    · rw [if_neg own] at read
      cases read
  · rename_i other shape
    by_cases own : other = id
    · rw [if_pos own] at read
      cases read
      rw [octetOf, shape, own]
      rfl
    · rw [if_neg own] at read
      cases read
  · cases read

/-- A matrix brings a byte of a named block in which two registries differ. -/
def Brings (id : BlockId) (left right : NamedBlocks) (source : Value) (start : Nat) (count : Int) :
    Prop :=
  ∃ bounds slots, source.data = .matrix bounds slots
    ∧ ∃ element ∈ select slots start count, ∃ index, byteRead? id element = some index
      ∧ byteOf left id index ≠ byteOf right id index

section Reading

variable {id : BlockId} {left right : NamedBlocks} (same : left.SameBut id right)

include same

theorem octetOf_eq {element : Value}
    (hidden : ∀ index, byteRead? id element = some index
      → byteOf left id index = byteOf right id index) :
    octetOf left element = octetOf right element := by
  cases read : byteRead? id element with
  | some index => rw [octetOf_read read, octetOf_read read, hidden index read]
  | none =>
      unfold byteRead? at read
      split at read
      · rename_i other index shape
        have apart : other ≠ id := by
          rintro rfl
          simp at read
        simp only [octetOf, shape, same.storage_eq apart]
      · rename_i other shape
        have apart : other ≠ id := by
          rintro rfl
          simp at read
        simp only [octetOf, shape, same.storage_eq apart]
      · rename_i notOctet notBlock
        unfold octetOf
        split
        · exact absurd ‹_› (notOctet _ _)
        · exact absurd ‹_› (notBlock _)
        · rfl

theorem blockOf_same {value : Value} (apart : value.data ≠ .namedBlock id) :
    blockOf left value = blockOf right value := by
  unfold blockOf
  cases shape : value.data with
  | namedBlock other =>
      have differs : other ≠ id := by
        rintro rfl
        exact apart shape
      simp only [same.storage_eq differs]
  | _ => rfl

theorem blockOf_twins (value : Value) :
    (∃ reason, blockOf left value = .error reason ∧ blockOf right value = .error reason)
      ∨ ∃ old twin, blockOf left value = .ok old ∧ blockOf right value = .ok twin
        ∧ old.outline = twin.outline ∧ (value.data ≠ .namedBlock id → old = twin) := by
  by_cases own : value.data = .namedBlock id
  · have outline : (left.storage? id).map Block.outline = (right.storage? id).map Block.outline := by
      rw [NamedBlocks.storage?, NamedBlocks.storage?]
      rcases same.lookup id with ⟨absent, missing⟩ | ⟨_, _, listed, present, _, _, storage⟩
      · rw [absent, missing]
      · rw [listed, present]
        exact storage
    simp only [blockOf, own]
    cases here : left.storage? id with
    | none =>
        rw [here, Option.map_none] at outline
        rw [Option.map_eq_none_iff.mp outline.symm]
        exact .inl ⟨_, rfl, rfl⟩
    | some old =>
        rw [here, Option.map_some] at outline
        obtain ⟨twin, there, sizes⟩ := Option.map_eq_some_iff.mp outline.symm
        rw [there]
        exact .inr ⟨old, twin, rfl, rfl, sizes.symm, fun other => absurd rfl other⟩
  · rw [blockOf_same same own]
    cases blockOf right value with
    | error reason => exact .inl ⟨reason, rfl, rfl⟩
    | ok block => exact .inr ⟨block, block, rfl, rfl, rfl, fun _ => rfl⟩

variable {source : Value} (apart : sourceBlock? source ≠ some id)

include apart

theorem octetRun_same {target : OctetTarget} {index : Nat} (shape : source.data = .octet target index) :
    octetRun left target index = octetRun right target index := by
  cases target with
  | text payload => rfl
  | namedBlock other =>
      have differs : other ≠ id := by
        rintro rfl
        exact apart (by rw [sourceBlock?, shape])
      simp only [octetRun, same.storage_eq differs]

theorem sourceBlock_same : blockOf left source = blockOf right source := by
  apply blockOf_same same
  intro named
  exact apart (by rw [sourceBlock?, named])

variable (start : Nat) (count : Int)

theorem bytesForText_same :
    bytesForText left source start count = bytesForText right source start count := by
  have block := sourceBlock_same same apart
  unfold bytesForText
  cases shape : source.data with
  | octet target index => simp only [octetRun_same same apart shape]
  | _ => simp only [block]

theorem elements_same : elements left source start count = elements right source start count := by
  have block := sourceBlock_same same apart
  unfold elements
  cases shape : source.data <;> simp only [block]

theorem bytesForBlock_same (hidden : ¬ Brings id left right source start count) :
    bytesForBlock left source start count = bytesForBlock right source start count := by
  have block := sourceBlock_same same apart
  unfold bytesForBlock
  cases shape : source.data with
  | octet target index => simp only [octetRun_same same apart shape]
  | matrix bounds slots =>
      apply congrArg Except.ok
      apply List.map_congr_left
      intro element taken
      apply octetOf_eq same
      intro index read
      apply Classical.byContradiction
      intro differs
      exact hidden ⟨bounds, slots, shape, element, taken, index, read, differs⟩
  | _ => simp only [block]

theorem bytesForBlock_length :
    (bytesForBlock left source start count).map List.length
      = (bytesForBlock right source start count).map List.length := by
  by_cases matrix : source.kind = .matrix
  · rw [Value.kind] at matrix
    unfold bytesForBlock
    cases shape : source.data <;> rw [shape] at matrix <;> cases matrix
    simp only [Except.map, List.length_map]
  · rw [bytesForBlock_same same apart start count]
    rintro ⟨bounds, slots, shape, _⟩
    exact matrix (congrArg Data.kind shape)

end Reading

theorem Brings.differ {id : BlockId} {left right : NamedBlocks} {source : Value} {start : Nat}
    {count : Int} (brings : Brings id left right source start count) {first second : Bytes}
    (here : bytesForBlock left source start count = .ok first)
    (there : bytesForBlock right source start count = .ok second) : first ≠ second := by
  obtain ⟨bounds, slots, shape, element, taken, index, read, differs⟩ := brings
  rw [bytesForBlock, shape] at here there
  cases here
  cases there
  intro equal
  apply differs
  have octets := List.map_inj_left.mp equal element taken
  rwa [octetOf_read read, octetOf_read read] at octets

/-- Two runs answer the same and leave machines that differ in nothing but the bytes of one block. -/
def Alike {α : Type} (id : BlockId) (left right : Except CopyError α × Machine) : Prop :=
  left.1 = right.1 ∧ left.2.SameBut id right.2

def Twins {α : Type} (id : BlockId) (first second : CopyM α) : Prop :=
  ∀ left right, Machine.SameBut id left right → Alike id (first left) (second right)

section Twins

variable {α β : Type} {id : BlockId}

theorem Twins.pure (result : α) : Twins id (Pure.pure result) (Pure.pure result) := by
  intro left right same
  exact ⟨rfl, same⟩

theorem Twins.throw_bind (error : CopyError) (first second : α → CopyM β) :
    Twins id ((throw error : CopyM α) >>= first) ((throw error : CopyM α) >>= second) := by
  intro left right same
  exact ⟨rfl, same⟩

theorem Twins.lift_bind (answer : Except CopyError α) {first second : α → CopyM β}
    (continued : ∀ result, Twins id (first result) (second result)) :
    Twins id (liftM answer >>= first) (liftM answer >>= second) := by
  intro left right same
  cases answer with
  | ok result => exact continued result left right same
  | error reason => exact ⟨rfl, same⟩

theorem Twins.bind {first second : CopyM α} {next after : α → CopyM β}
    (begun : Twins id first second) (continued : ∀ result, Twins id (next result) (after result)) :
    Twins id (first >>= next) (second >>= after) := by
  intro left right same
  have ran := begun left right same
  rcases here : first left with ⟨answer, left'⟩
  rcases there : second right with ⟨answer', right'⟩
  rw [here, there] at ran
  obtain ⟨answers, between⟩ := ran
  simp only at answers
  subst answers
  cases answer with
  | ok result =>
      rw [Effect.bind_ok here, Effect.bind_ok there]
      exact continued result left' right' between
  | error reason =>
      rw [Effect.bind_error here, Effect.bind_error there]
      exact ⟨rfl, between⟩

theorem onFiles_twins (file : FileId) (wrap : FileError → CopyError) (operation : FileM α) :
    Twins id (onFiles file wrap operation) (onFiles file wrap operation) := by
  intro left right same
  rcases right with ⟨config, constants, literals, registry, files⟩
  cases same.rest
  exact ⟨rfl, same.blocks, rfl⟩

end Twins

theorem replaced_same {id : BlockId} {left right : Machine} (same : left.SameBut id right)
    (destination : Value) {first second : Block} (outline : first.outline = second.outline)
    (equal : destination.data ≠ .namedBlock id → first = second) :
    (replaced left destination first).1 = (replaced right destination second).1
      ∧ (replaced left destination first).2.SameBut id (replaced right destination second).2 := by
  unfold replaced
  cases shape : destination.data with
  | namedBlock other =>
      refine ⟨rfl, ?_, ?_⟩
      · apply same.blocks.setStorage
        · rw [Option.map_some, Option.map_some, outline]
        · intro apart
          rw [equal]
          rw [shape]
          simpa using apart
      · simp only
        rw [same.rest]
  | _ =>
      rw [equal (by rw [shape]; simp)]
      exact ⟨rfl, same⟩

theorem replaced_elsewhere {id : BlockId} {destination : Value}
    (elsewhere : destination.data ≠ .namedBlock id) (machine : Machine) (block : Block) :
    (replaced machine destination block).1.data ≠ .namedBlock id := by
  unfold replaced
  split
  · exact elsewhere
  · intro named
    cases named

section IntoBlock

variable {id : BlockId} {left right : Machine} (same : left.SameBut id right) {destination : Value}
  {first second : Bytes} (length : first.length = second.length) (position : Int)

include same length

/-- Bytes that differ make no difference in the block that may differ, nor where they are refused. -/
theorem intoBlock_alike
    (agree : (intoBlock destination first position left).1.isOk = true
      → destination.data ≠ .namedBlock id → first = second) :
    Alike id (intoBlock destination first position left)
      (intoBlock destination second position right) := by
  rcases blockOf_twins same.blocks destination with
    ⟨reason, here, there⟩ | ⟨old, twin, here, there, outline, equal⟩
  · rw [intoBlock, intoBlock, changeBlock_missing here, changeBlock_missing there]
    exact ⟨rfl, same⟩
  · -- Both stores succeed or both are refused, whichever bytes they are given.
    have ends := Block.store_outline outline (mayGrow left.blocks destination) length position
    rw [intoBlock, changeBlock_run here] at agree
    rw [intoBlock, intoBlock, changeBlock_run here, changeBlock_run there,
      ← mayGrow_eq same.blocks destination]
    rcases Effect.map_eq_map ends with ⟨reason, one, two⟩ | ⟨new, new', one, two, sizes⟩
    · rw [one, two]
      exact ⟨rfl, same⟩
    · rw [one] at agree
      have written : destination.data ≠ .namedBlock id → new = new' := by
        intro elsewhere
        rw [equal elsewhere, agree rfl elsewhere, two] at one
        exact (Except.ok.inj one).symm
      have ended := replaced_same same destination sizes written
      rw [one, two]
      exact ⟨congrArg Except.ok ended.1, ended.2⟩

/-- Bytes that differ are told apart in any other block that takes them. -/
theorem intoBlock_tells (elsewhere : destination.data ≠ .namedBlock id)
    (alike : Alike id (intoBlock destination first position left)
      (intoBlock destination second position right))
    (taken : (intoBlock destination first position left).1.isOk = true) : first = second := by
  rcases blockOf_twins same.blocks destination with
    ⟨reason, here, _⟩ | ⟨old, twin, here, there, _, equal⟩
  · rw [intoBlock, changeBlock_missing here] at taken
    cases taken
  · have unchanged := equal elsewhere
    subst unchanged
    rw [intoBlock, intoBlock, changeBlock_run here, changeBlock_run there,
      ← mayGrow_eq same.blocks destination] at alike
    rw [intoBlock, changeBlock_run here] at taken
    cases one : old.store (mayGrow left.blocks destination) first position with
    | error reason =>
        rw [one] at taken
        cases taken
    | ok new =>
        cases two : old.store (mayGrow left.blocks destination) second position with
        | error reason =>
            rw [one, two] at alike
            cases alike.1
        | ok new' =>
            rw [one, two] at alike
            have results := Except.ok.inj alike.1
            -- Both answers stand for the same block, from which either side's bytes can be read back.
            have shown := blockOf_replaced here new
            rw [blockOf_same alike.2.blocks (replaced_elsewhere elsewhere left new), results,
              blockOf_replaced there new'] at shown
            cases shown
            have read := Block.store_slice one
            rw [length, Block.store_slice two] at read
            exact read.symm

end IntoBlock

theorem intoBlock_twins {id : BlockId} (destination : Value) (bytes : Bytes) (position : Int) :
    Twins id (intoBlock destination bytes position) (intoBlock destination bytes position) := by
  intro left right same
  exact intoBlock_alike same rfl position fun _ _ => rfl

theorem fileIntoBlock_twins {id : BlockId} (file : FileId) (start : Nat) (count : Int)
    (destination : Value) (position : Int) :
    Twins id (fileIntoBlock file start count destination position)
      (fileIntoBlock file start count destination position) := by
  unfold fileIntoBlock
  dsimp only
  split
  · exact Twins.throw_bind _ _ _
  apply Twins.bind (onFiles_twins _ _ _)
  intro size
  split
  · exact Twins.throw_bind _ _ _
  split
  · exact Twins.pure destination
  apply Twins.bind (onFiles_twins _ _ _)
  intro _
  apply Twins.bind (onFiles_twins _ _ _)
  intro bytes
  split
  · exact Twins.throw_bind _ _ _
  · exact intoBlock_twins destination bytes position

theorem intoFile_twins {id : BlockId} (file : FileId) (bytes : Bytes) (position : Int) :
    Twins id (intoFile file bytes position) (intoFile file bytes position) := by
  have written : Twins id
      (do onFiles file .shortWrite (Files.write file bytes)
          onFiles file .shortWrite (Files.flush file))
      (do onFiles file .shortWrite (Files.write file bytes)
          onFiles file .shortWrite (Files.flush file)) := by
    apply Twins.bind (onFiles_twins _ _ _)
    intro _
    exact onFiles_twins _ _ _
  unfold intoFile
  dsimp only
  split
  · exact Twins.throw_bind _ _ _
  split
  · apply Twins.bind (onFiles_twins _ _ _)
    intro _
    exact written
  · exact written

theorem gathered_twins {α : Type} {id : BlockId} {answer other : Except CopyError (List α)}
    (equal : answer = other) (destination : Value) {next : List α → CopyM Value}
    (continued : ∀ units, Twins id (next units) (next units)) :
    Twins id
      (liftM answer >>= fun units => if units.isEmpty then pure destination else next units)
      (liftM other >>= fun units => if units.isEmpty then pure destination else next units) := by
  subst equal
  apply Twins.lift_bind
  intro units
  split
  · exact Twins.pure destination
  · exact continued units

/-- A copy of a matrix into another block brings a byte in which the registries differ. -/
def Leaks (id : BlockId) (left right : NamedBlocks) (source : Value) (start : Nat) (count : Int)
    (destination : Value) : Prop :=
  isBlock destination.kind = true ∧ destination.data ≠ .namedBlock id
    ∧ Brings id left right source start count

section Route

variable {id : BlockId} {left right : Machine} (same : left.SameBut id right)
  {source destination : Value} (apart : sourceBlock? source ≠ some id) (start : Nat)
  (count position : Int) (exclusive : Bool)

include same apart

theorem route_into_block_alike_iff (block : isBlock destination.kind = true)
    (other : source.kind ≠ .file) :
    Alike id (route source start count destination position exclusive left)
        (route source start count destination position exclusive right)
      ↔ ((route source start count destination position exclusive left).1.isOk = true
        → ¬ Leaks id left.blocks right.blocks source start count destination) := by
  have lengths := bytesForBlock_length same.blocks apart start count
  rw [route_into_block block other, route_into_block block other]
  rcases Effect.map_eq_map lengths with
    ⟨reason, here, there⟩ | ⟨first, second, here, there, length⟩
  · rw [here, there]
    constructor
    · intro _ taken
      cases taken
    · intro _
      exact ⟨rfl, same⟩
  rw [here, there]
  by_cases empty : first = []
  · subst empty
    have nothing : second = [] := List.eq_nil_of_length_eq_zero length.symm
    subst nothing
    constructor
    · intro _ _ leaks
      exact leaks.2.2.differ here there rfl
    · intro _
      exact ⟨rfl, same⟩
  · have written : second ≠ [] := by
      rintro rfl
      exact empty (List.eq_nil_of_length_eq_zero length)
    simp only [List.isEmpty_iff, if_neg empty, if_neg written]
    constructor
    · intro alike taken leaks
      exact leaks.2.2.differ here there
        (intoBlock_tells same length position leaks.2.1 alike taken)
    · intro closed
      apply intoBlock_alike same length position
      intro taken elsewhere
      have hidden : ¬ Brings id left.blocks right.blocks source start count := by
        intro brings
        exact closed taken ⟨block, elsewhere, brings⟩
      rw [bytesForBlock_same same.blocks apart start count hidden, there] at here
      exact (Except.ok.inj here).symm

/-- Nothing is told apart on the routes that end elsewhere than in a block. -/
theorem route_alike (routed : isRoute source.kind destination.kind = true)
    (block : ¬ isBlock destination.kind = true) :
    Alike id (route source start count destination position exclusive left)
      (route source start count destination position exclusive right) := by
  unfold route
  rw [Effect.get_bind_run, Effect.get_bind_run]
  cases shape : destination.data with
  | number payload =>
      -- Digits come from blocks alone, so that no matrix can bring them.
      have hidden : ¬ Brings id left.blocks right.blocks source start count := by
        rintro ⟨bounds, slots, matrix, _⟩
        rw [Value.kind, Value.kind, shape, matrix] at routed
        cases routed
      apply gathered_twins (bytesForBlock_same same.blocks apart start count hidden) _ _ _ _ same
      intro bytes
      exact Twins.pure _
  | text payload =>
      apply gathered_twins (bytesForText_same same.blocks apart start count) _ _ _ _ same
      intro bytes
      exact Twins.pure _
  | file file =>
      apply gathered_twins (bytesForText_same same.blocks apart start count) _ _ _ _ same
      intro bytes
      apply Twins.bind (intoFile_twins file bytes position)
      intro _
      exact Twins.pure destination
  | matrix bounds slots =>
      apply gathered_twins (elements_same same.blocks apart start count) _ _ _ _ same
      intro values
      apply Twins.lift_bind
      intro _
      exact Twins.pure _
  | list items =>
      apply gathered_twins (elements_same same.blocks apart start count) _ _ _ _ same
      intro values
      apply Twins.lift_bind
      intro _
      exact Twins.pure _
  | block _ => exact absurd (by rw [Value.kind, shape]; rfl) block
  | namedBlock _ => exact absurd (by rw [Value.kind, shape]; rfl) block
  | _ =>
      rw [Value.kind, Value.kind, shape] at routed
      cases routed

theorem route_alike_iff (routed : isRoute source.kind destination.kind = true) :
    Alike id (route source start count destination position exclusive left)
        (route source start count destination position exclusive right)
      ↔ ((route source start count destination position exclusive left).1.isOk = true
        → ¬ Leaks id left.blocks right.blocks source start count destination) := by
  by_cases block : isBlock destination.kind = true
  · by_cases file : source.kind = .file
    · obtain ⟨_, read⟩ := route_from_file block file start count position exclusive
      constructor
      · rintro _ _ ⟨_, _, bounds, slots, matrix, _⟩
        rw [Value.kind, matrix] at file
        cases file
      · intro _
        rw [read]
        exact fileIntoBlock_twins _ _ _ _ _ left right same
    · exact route_into_block_alike_iff same apart start count position exclusive block file
  · constructor
    · intro _ _ leaks
      exact block leaks.1
    · intro _
      exact route_alike same apart start count position exclusive routed block

end Route

/-- Two machines that differ in nothing but the bytes of a block which is protected against being copied
from are told apart by a copy exactly if it succeeds and leaks: a matrix brings a byte in which they
differ to another block. -/
theorem protected_copy_alike_iff {id : BlockId} {left right : Machine} (same : left.SameBut id right)
    {named : NamedBlock} (listed : left.blocks.get? id = some named)
    (barred : named.protection.contains Protection.noCopyFrom = true) (source : Value)
    (start count : Int) (destination : Value) (position : Int) (exclusive : Bool) :
    Alike id (copy source start count destination position exclusive left)
        (copy source start count destination position exclusive right)
      ↔ ((copy source start count destination position exclusive left).1.isOk = true
        → ¬ Leaks id left.blocks right.blocks source start.toNat count destination) := by
  rw [copy_run, copy_run, ← permit_eq same.blocks]
  cases admitted : permit left.blocks source start destination with
  | error reason =>
      constructor
      · intro _ taken
        cases taken
      · intro _
        exact ⟨rfl, same⟩
  | ok _ =>
      have apart := admitted_source admitted listed barred
      have routed := (permit_checks.mp admitted).2.2.2
      exact route_alike_iff same apart start.toNat count position exclusive routed

/-- A machine with one named block, which holds one byte and is not to be copied from. -/
def oneSecret (byte : UInt8) : Machine :=
  { Machine.new {} (Host.initial none none) with
    blocks := {
      blocks := [⟨"n", ⟨0⟩, Protection.noCopyFrom, some (Block.ofBytes [byte] 1)⟩]
      byName := [("n", ⟨0⟩)] } }

theorem oneSecret_same (left right : UInt8) : (oneSecret left).SameBut ⟨0⟩ (oneSecret right) where
  blocks := by
    constructor
    case byName => rfl
    case others =>
      intro place apart
      cases place with
      | zero => exact absurd rfl apart
      | succ place => rfl
    case outline =>
      have outline : (Block.ofBytes [left] 1).outline = (Block.ofBytes [right] 1).outline := by
        rw [Block.ofBytes_eq_put, Block.ofBytes_eq_put]
        exact Block.put_outline rfl 0 rfl
      exact congrArg (fun sizes => some ("n", (⟨0⟩ : BlockId), Protection.noCopyFrom, some sizes))
        outline
  rest := rfl

def bearer : Value :=
  .plain (.matrix [(0, 1)] [.ofInt 7, .ofNamedBlock ⟨0⟩])

def emptyBlock : Value :=
  .ofBlock (Block.ofBytes [] 4)

/-- The number alone tells nothing, both elements tell the byte. -/
theorem bearer_tells_byte :
    Alike ⟨0⟩ (copy bearer 0 1 emptyBlock 0 false (oneSecret 0x5a))
        (copy bearer 0 1 emptyBlock 0 false (oneSecret 0))
      ∧ ¬ Alike ⟨0⟩ (copy bearer 0 (-1) emptyBlock 0 false (oneSecret 0x5a))
        (copy bearer 0 (-1) emptyBlock 0 false (oneSecret 0)) := by
  have same := oneSecret_same 0x5a 0
  constructor
  · apply (protected_copy_alike_iff same rfl rfl _ _ _ _ _ _).mpr
    rintro _ ⟨_, _, bounds, slots, matrix, element, taken, index, read, _⟩
    cases matrix
    have number : element = .ofInt 7 := List.mem_singleton.mp taken
    rw [number] at read
    cases read
  · intro alike
    apply (protected_copy_alike_iff same rfl rfl _ _ _ _ _ _).mp alike rfl
    refine ⟨rfl, nofun, _, _, rfl, .ofNamedBlock ⟨0⟩, ?_, 0, rfl, by decide⟩
    exact List.mem_cons_of_mem _ List.mem_cons_self

def answered (answer : Except CopyError Value) : Option Bytes :=
  match answer with
  | .ok { data := .block block, .. } => some block.data
  | _ => none

/-- An element of a matrix brings the byte of a block that is not to be copied from. -/
theorem element_brings_secret :
    (oneSecret 0x5a).SameBut ⟨0⟩ (oneSecret 0)
      ∧ answered (copy (.plain (.matrix [(0, 0)] [.ofNamedBlock ⟨0⟩])) 0 (-1) emptyBlock 0 false
        (oneSecret 0x5a)).1 = some [0x5a]
      ∧ answered (copy (.plain (.matrix [(0, 0)] [.ofNamedBlock ⟨0⟩])) 0 (-1) emptyBlock 0 false
        (oneSecret 0)).1 = some [0] :=
  ⟨oneSecret_same 0x5a 0, rfl, rfl⟩

end Calculator.Copy
