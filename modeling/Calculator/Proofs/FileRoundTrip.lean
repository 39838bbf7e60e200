import Calculator.Proofs.CopyIntoBlock
import Calculator.Proofs.CopyPermission
import Calculator.Proofs.MisdirectedCopy
import Calculator.Proofs.OpenEntry

/-!
# Bytes through a file

Bytes that are copied into a file are on the host at their place, with zeros in a gap before them and
all other bytes as they were, and a copy back into an empty block brings the same bytes. It does not
matter where the file stood or what waited in its buffers.
-/

namespace Calculator

namespace Block

theorem put_empty_data {block : Block} (empty : block.length = 0) (bytes : Bytes) :
    (block.put 0 bytes).data = bytes := by
  have shown : max block.length (0 + bytes.length) = bytes.length := by omega
  have begins : ∃ rest, (block.storage.write 0 bytes).toBytes = bytes ++ rest := by
    rw [Content.toBytes_write_eq_patch]
    by_cases nothing : bytes = []
    · exact ⟨block.storage.toBytes, by rw [nothing, Bytes.patch_nil, List.nil_append]⟩
    · exact ⟨_, by rw [Bytes.patch_parts _ _ nothing, List.take_zero, List.nil_append]⟩
  obtain ⟨rest, written⟩ := begins
  rw [data, content, put, shown, Content.toBytes_resize, written, List.take_left, List.length_append,
    Nat.sub_eq_zero_of_le (Nat.le_add_right _ _)]
  exact List.append_nil _

theorem store_empty {block : Block} (empty : block.length = 0) (bytes : Bytes) :
    ∃ after, block.store true bytes 0 = .ok after ∧ after.data = bytes := by
  unfold store reserve
  rw [if_neg (Int.lt_irrefl 0)]
  dsimp only [Int.toNat_zero]
  by_cases fits : 0 + bytes.length ≤ block.capacity
  · rw [if_pos fits]
    exact ⟨_, rfl, put_empty_data empty bytes⟩
  · rw [if_neg fits, if_pos rfl]
    refine ⟨_, rfl, put_empty_data ?_ bytes⟩
    exact empty

end Block

namespace Copy

/-- The value holds the bytes, as a block, as a named block or as a text. -/
inductive Holds (blocks : NamedBlocks) (value : Value) (bytes : Bytes) : Prop
  | block {block : Block} (shape : value.data = .block block) (data : block.data = bytes)
  | namedBlock {id : BlockId} {block : Block} (shape : value.data = .namedBlock id)
      (stored : blocks.storage? id = some block) (data : block.data = bytes)
  | text {payload : Payload Bytes} (shape : value.data = .text payload)
      (content : payload.content = bytes)

/-- The value stands for an empty block, and neither is protected against growth. -/
inductive Receptive (blocks : NamedBlocks) (value : Value) : Prop
  | block {block : Block} (shape : value.data = .block block) (empty : block.length = 0)
      (grows : value.protection.canGrow = true)
  | namedBlock {id : BlockId} {named : NamedBlock} {block : Block} (shape : value.data = .namedBlock id)
      (listed : blocks.get? id = some named) (stored : named.block = some block)
      (empty : block.length = 0) (grows : value.protection.canGrow = true)
      (named_grows : named.protection.canGrow = true)

variable {machine : Machine} {id : FileId} {blocks : NamedBlocks} {source destination : Value}
  {bytes : Bytes}

theorem Holds.all (holds : Holds blocks source bytes) :
    bytesForText blocks source 0 (-1) = .ok bytes := by
  have whole (block : Block) : selectBytes block 0 (-1) = block.data := by
    rw [selectBytes_eq, select_all]
  unfold bytesForText blockOf
  cases holds with
  | block shape data =>
      rw [shape, ← data, ← whole]
      rfl
  | namedBlock shape stored data =>
      simp only [shape, stored]
      rw [← data, ← whole]
      rfl
  | text shape content =>
      rw [shape, ← content]
      simp only [select_all]

theorem Holds.routed (holds : Holds blocks source bytes) : Routed source.kind .file := by
  rw [Value.kind]
  cases holds with
  | block shape _ => rw [shape]; exact ⟨rfl, rfl, rfl⟩
  | namedBlock shape _ _ => rw [shape]; exact ⟨rfl, rfl, rfl⟩
  | text shape _ => rw [shape]; exact ⟨rfl, rfl, rfl⟩

theorem Receptive.held (receptive : Receptive blocks destination) :
    ∃ block, blockOf blocks destination = .ok block ∧ block.length = 0
      ∧ mayGrow blocks destination = true := by
  unfold blockOf mayGrow destinationBlock?
  cases receptive with
  | block shape empty grows => exact ⟨_, by rw [shape], empty, by simp [shape, grows]⟩
  | namedBlock shape listed stored empty grows named_grows =>
      exact ⟨_, by simp [shape, NamedBlocks.storage?, listed, stored], empty,
        by simp [shape, listed, grows, named_grows]⟩

theorem Receptive.isBlock (receptive : Receptive blocks destination) :
    isBlock destination.kind = true := by
  obtain ⟨block, held, _⟩ := receptive.held
  exact blockOf_isBlock held

theorem Receptive.routed (receptive : Receptive blocks destination) :
    Routed .file destination.kind := by
  have block := receptive.isBlock
  revert block
  cases destination.kind <;> intro block <;> first | exact ⟨rfl, rfl, rfl⟩ | cases block

theorem onFiles_ok {α : Type} {wrap : FileError → CopyError} {operation : FileM α} {result : α}
    {files : Files} (ran : operation machine.files = (.ok result, files)) :
    onFiles id wrap operation machine = (.ok result, { machine with files }) := by
  rw [onFiles_run, ran]
  rfl

theorem toAbsolute_of_le {target : Nat} (inside : target ≤ Content.maxSize) :
    Position.toAbsolute (target : Int) = .ok target :=
  Position.toAbsolute_natCast (Nat.lt_of_le_of_lt inside (by decide))

/-- A file that takes bytes at a place has them there, on the host. -/
theorem intoFile_stores {entry : Entry} {descriptor : Descriptor} {content : Content} {before : Bytes}
    (found : machine.files.table.find? id = some entry) (ordinary : id.isStandard = false)
    (writing : entry.mode.writing = true)
    (regular : machine.files.host.open? entry.stream.descriptor = some (descriptor, .file content))
    (direct : descriptor.appends = false) (holds : machine.files.contentOf? id = some before)
    (nonempty : bytes ≠ []) {target : Nat}
    (sized : (before.patch target bytes).length ≤ Content.maxSize) :
    ∃ files, intoFile id bytes target machine = (.ok (), { machine with files })
      ∧ files.Plain id entry.mode descriptor.node (((PlainFile.opened before).goTo target).write bytes)
      ∧ files.host.Stores descriptor.node (before.patch target bytes) := by
  rw [Bytes.patch_length _ _ nonempty] at sized
  have large : before.length ≤ Content.maxSize := by omega
  have inside : target ≤ Content.maxSize := by omega
  have notInput : (id == FileId.stdin) = false := by
    apply beq_eq_false_iff_ne.mpr
    rintro rfl
    cases ordinary
  obtain ⟨moved, positioned, stands⟩ := Files.setPosition_shows found ordinary regular direct holds large
    (toAbsolute_of_le inside) inside
  have room : ((PlainFile.opened before).goTo target).tell + bytes.length ≤ Content.maxSize := by
    simp only [PlainFile.tell, PlainFile.goTo, List.length_nil]
    omega
  obtain ⟨wrote, written, goes⟩ := stands.write writing room
  obtain ⟨flushed, out, shows, stores⟩ := goes.flush writing rfl
  refine ⟨flushed, ?_, shows, stores⟩
  have onward : (decide (0 ≤ (target : Int)) && !id.isStandard) = true := by simp [ordinary]
  unfold intoFile
  simp only [notInput, onward, Bool.false_eq_true, if_false, if_true]
  rw [Effect.bind_ok (onFiles_ok positioned), Effect.bind_ok (onFiles_ok written)]
  exact onFiles_ok out

theorem replaced_files (machine : Machine) (destination : Value) (block : Block) :
    (replaced machine destination block).2.files = machine.files := by
  unfold replaced
  split <;> rfl

theorem intoBlock_shows (receptive : Receptive machine.blocks destination) (bytes : Bytes) :
    ∃ after last new, intoBlock destination bytes 0 machine = (.ok after, last)
      ∧ last.files = machine.files ∧ blockOf last.blocks after = .ok new ∧ new.data = bytes := by
  obtain ⟨old, held, empty, grows⟩ := receptive.held
  obtain ⟨new, stored, data⟩ := old.store_empty empty bytes
  refine ⟨_, _, new, ?_, replaced_files machine destination new, blockOf_replaced held new, data⟩
  rw [intoBlock, changeBlock_run held]
  simp only [grows, stored]

/-- Bytes of a file that come into an empty block are all that it shows then, and the file stands behind
them. -/
theorem fileIntoBlock_shows {mode : Mode} {node : NodeId} {file : PlainFile} {target : Nat}
    (plain : machine.files.Plain id mode node file) (ordinary : id.isStandard = false)
    (reading : mode.reading = true) (sized : file.content.length < 2147483648)
    (there : (file.content.drop target).take bytes.length = bytes) (nonempty : bytes ≠ [])
    (receptive : Receptive machine.blocks destination) :
    ∃ after last new, fileIntoBlock id target bytes.length destination 0 machine = (.ok after, last)
      ∧ blockOf last.blocks after = .ok new ∧ new.data = bytes
      ∧ (Files.tell id last.files).1 = .ok ((target + bytes.length : Nat) : Int) := by
  have length := congrArg List.length there
  rw [List.length_take, List.length_drop] at length
  have some_bytes := List.length_pos_iff.mpr nonempty
  have inside : target ≤ Content.maxSize := by
    simp only [Content.maxSize]
    omega
  obtain ⟨measured, asked, still⟩ := plain.size
  obtain ⟨moved, positioned, stands⟩ := still.setPosition ordinary (toAbsolute_of_le inside) inside
  obtain ⟨fetched, read, behind⟩ := stands.readBytes reading bytes.length
  have left : (((file.goTo target).toward .none).toward .read).remaining = file.content.drop target := rfl
  have takes : (((file.goTo target).toward .none).toward .read).take bytes.length
      = (bytes, (((file.goTo target).toward .none).toward .read).advance bytes.length) := by
    rw [PlainFile.take, left, List.length_drop, if_pos (by omega), there]
  rw [takes] at read behind
  have wanted : clamp (file.content.length : Int).toNat target bytes.length = bytes.length := by
    rw [clamp, if_neg (by omega), Int.toNat_natCast, Int.toNat_natCast]
    omega
  have kept : Receptive ({ machine with files := fetched } : Machine).blocks destination := receptive
  obtain ⟨after, last, new, brought, same, held, data⟩ := intoBlock_shows kept bytes
  refine ⟨after, last, new, ?_, held, data, ?_⟩
  · have small : ¬ maxSourceFile < (file.content.length : Int) := by
      simp only [maxSourceFile]
      omega
    have some_wanted : bytes.length ≠ 0 := by omega
    unfold fileIntoBlock
    rw [if_neg (by simp [ordinary])]
    refine (Effect.bind_ok (onFiles_ok asked)).trans ?_
    simp only [wanted, if_neg small, if_neg some_wanted]
    rw [Effect.bind_ok (onFiles_ok positioned), Effect.bind_ok (onFiles_ok read)]
    simp only [if_neg (Nat.lt_irrefl bytes.length)]
    exact brought
  · rw [same, behind.tell]
    simp [PlainFile.tell, PlainFile.advance, PlainFile.goTo, PlainFile.toward]

end Copy

open Copy

/-- Bytes that are copied into a file come back from it. The file may be any regular one that is open
for update and does not append, wherever it stands and whatever waits in its buffers. -/
theorem file_gives_bytes_back {machine : Machine} {id : FileId} {entry : Entry}
    {descriptor : Descriptor} {content : Content} {before bytes : Bytes} {target : Nat}
    {file source destination : Value} (found : machine.files.table.find? id = some entry)
    (ordinary : id.isStandard = false) (updated : entry.mode.update = true)
    (regular : machine.files.host.open? entry.stream.descriptor = some (descriptor, .file content))
    (direct : descriptor.appends = false) (whole : machine.files.contentOf? id = some before)
    (opened : file.data = .file id) (holds : Holds machine.blocks source bytes)
    (receptive : Receptive machine.blocks destination)
    (given : Unprotected machine.blocks source file)
    (returned : Unprotected machine.blocks file destination) (nonempty : bytes ≠ [])
    (sized : max before.length (target + bytes.length) < 2147483648) (exclusive again : Bool) :
    ∃ middle stored last after new,
      copy source 0 (-1) file target exclusive machine = (.ok file, middle)
        ∧ middle.files.host.Stores descriptor.node stored
        ∧ stored.length = max before.length (target + bytes.length)
        ∧ (∀ index, stored.getD index 0
          = if target ≤ index ∧ index < target + bytes.length then bytes.getD (index - target) 0
            else before.getD index 0)
        ∧ copy file target bytes.length destination 0 again middle = (.ok after, last)
        ∧ blockOf last.blocks after = .ok new ∧ new.data = bytes
        ∧ (Files.tell id last.files).1 = .ok ((target + bytes.length : Nat) : Int) := by
  have writing : entry.mode.writing = true := by simp [Mode.writing, updated]
  have reading : entry.mode.reading = true := by simp [Mode.reading, updated]
  have length := before.patch_length target nonempty
  have fits : (before.patch target bytes).length ≤ Content.maxSize := by
    simp only [Content.maxSize]
    omega
  obtain ⟨files, ran, plain, stores⟩ :=
    intoFile_stores found ordinary writing regular direct whole nonempty fits
  obtain ⟨after, last, new, read, held, data, tells⟩ :
      ∃ after last new, fileIntoBlock id target bytes.length destination 0 { machine with files }
          = (.ok after, last)
        ∧ blockOf last.blocks after = .ok new ∧ new.data = bytes
        ∧ (Files.tell id last.files).1 = .ok ((target + bytes.length : Nat) : Int) := by
    have small : (((PlainFile.opened before).goTo target).write bytes).content.length < 2147483648 := by
      rw [← length] at sized
      exact sized
    exact fileIntoBlock_shows plain ordinary reading small (before.take_drop_patch target nonempty)
      nonempty receptive
  refine ⟨{ machine with files }, _, last, after, new, ?_, stores, length, before.patch_getD target bytes,
    ?_, held, data, tells⟩
  · have kind : file.kind = .file := congrArg Data.kind opened
    have admitted : permit machine.blocks source 0 file = .ok () :=
      permit_ok_iff.mpr ⟨given, kind ▸ holds.routed, Int.le_refl 0⟩
    have brought : (intoFile id bytes target >>= fun _ => pure file : CopyM Value) machine
        = (.ok file, { machine with files }) := Effect.bind_ok ran
    rw [copy_run, admitted]
    simp only [route_into_file opened, Int.toNat_zero, holds.all]
    rw [if_neg (by simpa using nonempty), brought]
  · have kind : file.kind = .file := congrArg Data.kind opened
    have admitted : permit machine.blocks file target destination = .ok () :=
      permit_ok_iff.mpr ⟨returned, kind ▸ receptive.routed, Int.natCast_nonneg target⟩
    rw [copy_run]
    simp only [admitted, route_of_file receptive.isBlock opened, Int.toNat_natCast]
    exact read

namespace RoundTripSample

def machine : Machine :=
  { Machine.new {} OneFile.host with files := (Files.write ⟨3⟩ [0x78] (OneFile.opened "r+")).2 }

def entry : Entry where
  id := ⟨3⟩
  name := "a"
  mode := { base := .read, binary := false, update := true }
  node := some 10
  stream := { Stream.new 3 true with pending := [0x78], direction := .write }

/-- A text is copied two bytes behind the end of the file, and back. -/
theorem pending_file_gives_bytes_back :
    ∃ middle stored last after new,
      copy (.ofText [0x31, 0x32]) 0 (-1) (.ofFile ⟨3⟩) 7 false machine = (.ok (.ofFile ⟨3⟩), middle)
        ∧ middle.files.host.Stores 10 stored ∧ stored.length = 9
        ∧ (List.range 9).map (stored.getD · 0) = [0x78, 0x62, 0x63, 0x64, 0x65, 0, 0, 0x31, 0x32]
        ∧ copy (.ofFile ⟨3⟩) 7 2 (.ofBlock (Block.allocate 0 0)) 0 false middle = (.ok after, last)
        ∧ blockOf last.blocks after = .ok new ∧ new.data = [0x31, 0x32]
        ∧ (Files.tell ⟨3⟩ last.files).1 = .ok 9 := by
  have found : machine.files.table.find? ⟨3⟩ = some entry := by cbv
  have regular : machine.files.host.open? entry.stream.descriptor
      = some ({ node := 10, offset := 0, appends := false },
          .file (Content.ofBytes [0x61, 0x62, 0x63, 0x64, 0x65])) := by cbv
  have whole : machine.files.contentOf? ⟨3⟩ = some [0x78, 0x62, 0x63, 0x64, 0x65] := by cbv
  have holds : Holds machine.blocks (.ofText [0x31, 0x32]) [0x31, 0x32] := .text rfl rfl
  have receptive : Receptive machine.blocks (.ofBlock (Block.allocate 0 0)) := .block rfl rfl rfl
  have given : Unprotected machine.blocks (.ofText [0x31, 0x32]) (.ofFile ⟨3⟩) :=
    ⟨rfl, rfl, fun _ named => (by cases named), fun _ named => (by cases named)⟩
  have returned : Unprotected machine.blocks (.ofFile ⟨3⟩) (.ofBlock (Block.allocate 0 0)) :=
    ⟨rfl, rfl, fun _ named => (by cases named), fun _ named => (by cases named)⟩
  have sized : max [0x78, 0x62, 0x63, 0x64, 0x65].length (7 + [0x31, 0x32].length) < 2147483648 := by
    decide
  obtain ⟨middle, stored, last, after, new, into, stores, length, bytes, back, held, data, tells⟩ :=
    file_gives_bytes_back found rfl rfl regular rfl whole rfl holds receptive given returned
      (by decide) sized false false
  refine ⟨middle, stored, last, after, new, into, stores, length, ?_, back, held, data, tells⟩
  simp only [bytes]
  decide

end RoundTripSample

end Calculator
