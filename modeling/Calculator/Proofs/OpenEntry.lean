import Calculator.Proofs.OpenFile
import Calculator.Proofs.Settling

/-!
# The file of one handle

A call on a handle runs a transfer on the stream of its entry and keeps what the transfer leaves. What
is known of the stream is known of the entry, whatever other files are open. An entry that shows a
plain file answers as the plain file does.
-/

namespace Calculator

/-- The file of `id` is open in `mode`, and its stream is as `holds` says. -/
def Files.Bears (files : Files) (id : FileId) (mode : Mode) (holds : Channel → Prop) : Prop :=
  ∃ entry, files.table.find? id = some entry ∧ entry.mode = mode
    ∧ holds { stream := entry.stream, host := files.host }

def Files.Plain (files : Files) (id : FileId) (mode : Mode) (node : NodeId) (file : PlainFile) : Prop :=
  files.Bears id mode fun channel => channel.Mirrors node file

namespace Files

variable {files : Files} {id : FileId} {mode : Mode} {first : Channel → Prop} {α : Type}

/-- A transfer takes the stream along. -/
theorem Bears.run (bears : files.Bears id mode first) {lookup : FileM Entry}
    (looks : ∀ entry, files.table.find? id = some entry → entry.mode = mode →
      lookup files = (.ok entry, files)) (transfer : Transfer α) :
    ∃ channel, first channel
      ∧ ((lookup >>= fun entry => Files.run entry transfer) files).1
        = (transfer channel).1.mapError FileError.host
      ∧ ((lookup >>= fun entry => Files.run entry transfer) files).2.table.readChunk
        = files.table.readChunk
      ∧ ∀ last : Channel → Prop, last (transfer channel).2 →
        ((lookup >>= fun entry => Files.run entry transfer) files).2.Bears id mode last := by
  obtain ⟨entry, found, opened, holds⟩ := bears
  refine ⟨{ stream := entry.stream, host := files.host }, holds, ?_⟩
  rw [Effect.bind_ok (looks entry found opened)]
  refine ⟨rfl, rfl, fun last reached => ?_⟩
  rw [run_files, FileTable.id_of_find? found]
  exact ⟨_, FileTable.find?_setStream_self found _, opened, reached⟩

section Plain

variable {node : NodeId} {file : PlainFile}

theorem Plain.yields (plain : files.Plain id mode node file) {lookup : FileM Entry}
    (looks : ∀ entry, files.table.find? id = some entry → entry.mode = mode →
      lookup files = (.ok entry, files)) {transfer : Transfer α} {result : α} {final : PlainFile}
    (yields : ∀ channel : Channel, channel.Mirrors node file →
      transfer.Yields channel node result final) :
    ∃ after, (lookup >>= fun entry => Files.run entry transfer) files = (.ok result, after)
      ∧ after.Plain id mode node final := by
  obtain ⟨channel, mirrors, answered, _, reached⟩ := plain.run looks transfer
  obtain ⟨after, ran, shows, _⟩ := yields channel mirrors
  rw [ran] at answered reached
  exact ⟨_, Effect.run_of_answer answered, reached _ shows⟩

variable (plain : files.Plain id mode node file)

include plain

theorem Plain.write (writing : mode.writing = true) {bytes : Bytes}
    (inside : file.tell + bytes.length ≤ Content.maxSize) :
    ∃ after, Files.write id bytes files = (.ok (), after)
      ∧ after.Plain id mode node (file.write bytes) := by
  refine plain.yields ?_ fun channel mirrors => ?_
  · rintro entry found rfl
    exact writableEntry_found found writing
  · apply (Transfer.prepareWrite_yields mirrors).bind
    intro ready outward
    rw [← PlainFile.write_nil_write]
    exact Transfer.writeAll_yields outward rfl inside

theorem Plain.readBytes (reading : mode.reading = true) (count : Nat) :
    ∃ after, Files.readBytes id count files = (.ok ((file.toward .read).take count).1, after)
      ∧ after.Plain id mode node ((file.toward .read).take count).2 := by
  refine plain.yields ?_ fun channel mirrors => ?_
  · rintro entry found rfl
    exact readableEntry_found found reading
  · apply (Transfer.prepareRead_yields mirrors).bind
    intro ready inward
    exact Transfer.readBytes_yields inward rfl count

theorem Plain.setPosition (ordinary : id.isStandard = false) {position : Int} {target : Nat}
    (taken : Position.toAbsolute position = .ok target) (inside : target ≤ Content.maxSize) :
    ∃ after, Files.setPosition id position files = (.ok (), after)
      ∧ after.Plain id mode node ((file.goTo target).toward .none) := by
  unfold Files.setPosition
  rw [if_neg (by simp [ordinary]), taken]
  exact plain.yields (fun _ found _ => entry_found found) fun _ mirrors =>
    Transfer.reposition_yields mirrors inside

theorem Plain.size :
    ∃ after, Files.size id files = (.ok (file.content.length : Int), after)
      ∧ after.Plain id mode node file := by
  obtain ⟨after, ran, shows⟩ := plain.yields (fun _ found _ => entry_found found) fun _ mirrors =>
    Transfer.size_yields mirrors
  refine ⟨after, ?_, shows⟩
  unfold Files.size
  rw [← bind_assoc, Effect.bind_ok ran]
  rfl

theorem Plain.tell : (Files.tell id files).1 = .ok (file.tell : Int) := by
  obtain ⟨after, ran, _⟩ := plain.yields (fun _ found _ => entry_found found) fun _ mirrors =>
    Transfer.position_yields mirrors
  unfold Files.tell
  rw [← bind_assoc, Effect.bind_ok ran]
  rfl

theorem Plain.flush (writing : mode.writing = true) (outward : file.direction = .write) :
    ∃ after, Files.flush id files = (.ok (), after) ∧ after.Plain id mode node file
      ∧ after.host.Stores node file.content := by
  obtain ⟨entry, found, rfl, offset, disk, holds, shows⟩ := plain
  obtain ⟨host, ran, held, _⟩ := Transfer.flush_run holds shows
  have waits : (entry.mode.writing && entry.stream.direction != .read) = true := by
    rw [writing, ← shows.direction, outward]
    rfl
  have listed := FileTable.find?_setStream_self found { entry.stream with pending := [] }
  refine ⟨{ table := files.table.setStream id { entry.stream with pending := [] }, host }, ?_,
    ⟨_, listed, rfl, _, _, held, shows.flushed⟩, ?_⟩
  · unfold Files.flush
    rw [Effect.bind_ok (entry_found found), if_pos waits]
    simp only [run, ran, FileTable.id_of_find? found]
    rfl
  · rw [shows.content]
    exact held.stores

end Plain

end Files

namespace Transfer

variable {channel : Channel} {descriptor : Descriptor} {content : Content} {before : Bytes}

theorem flush_fits
    (regular : channel.host.open? channel.stream.descriptor = some (descriptor, .file content))
    (holds : content.toBytes.patch (descriptor.writeStart content) channel.stream.pending = before)
    (sized : before.length ≤ Content.maxSize) : ∃ after, flush channel = (.ok (), after) := by
  have fits : channel.stream.pending.length ≤ Content.maxSize - descriptor.writeStart content := by
    by_cases nothing : channel.stream.pending = []
    · rw [nothing]
      exact Nat.zero_le _
    · rw [← holds, Bytes.patch_length _ _ nothing] at sized
      omega
  obtain ⟨failed, ran⟩ := request_eq
    (fun host descriptor => host.write descriptor channel.stream.pending)
    { channel with stream := { channel.stream with pending := [] } }
  have written := (Host.write_ok_iff regular channel.stream.pending).mpr fits
  exact ⟨_, (flush_eq channel).trans (ran.trans (congrArg (·, _) written))⟩

/-- Whatever waits in its buffers, a stream that does not append shows a plain file once it is moved,
with what waited to be written in it. -/
theorem reposition_shows
    (regular : channel.host.open? channel.stream.descriptor = some (descriptor, .file content))
    (direct : descriptor.appends = false)
    (holds : content.toBytes.patch (descriptor.writeStart content) channel.stream.pending = before)
    (sized : before.length ≤ Content.maxSize) {target : Nat} (inside : target ≤ Content.maxSize) :
    ∃ after, reposition target channel = (.ok (), after)
      ∧ after.Mirrors descriptor.node ((PlainFile.opened before).goTo target) := by
  obtain ⟨flushed, ran⟩ := flush_fits regular holds sized
  obtain ⟨stored, held, _, bytes⟩ := flush_file regular ran
  have idle := (flush_ok ran).2
  have moved := request_run (fun host descriptor => host.seek descriptor target)
    { flushed with stream := { flushed.stream with ahead := [], pushback := [], eof := false } }
    ((Host.seek_file held target).trans (if_pos inside))
  have sought : seek target channel = (.ok (), _) := (Effect.bind_ok ran).trans moved
  refine ⟨_, Effect.bind_ok sought, target, before, ?_, ?_⟩
  · obtain ⟨listed, kept⟩ := Host.open?_some (Host.setOffset_open? held target)
    simp only [direct] at listed
    exact ⟨stored, listed, kept, bytes.trans holds⟩
  · constructor <;> simp [idle, PlainFile.goTo, PlainFile.opened, inside, sized]

end Transfer

namespace Files

variable {files : Files} {id : FileId} {entry : Entry} {descriptor : Descriptor} {content : Content}
  {before : Bytes}

theorem setPosition_shows (found : files.table.find? id = some entry)
    (ordinary : id.isStandard = false)
    (regular : files.host.open? entry.stream.descriptor = some (descriptor, .file content))
    (direct : descriptor.appends = false) (holds : files.contentOf? id = some before)
    (sized : before.length ≤ Content.maxSize) {position : Int} {target : Nat}
    (taken : Position.toAbsolute position = .ok target) (inside : target ≤ Content.maxSize) :
    ∃ after, setPosition id position files = (.ok (), after)
      ∧ after.Plain id entry.mode descriptor.node ((PlainFile.opened before).goTo target) := by
  rw [contentOf?_file found regular] at holds
  have whole := Option.some.inj holds
  obtain ⟨channel, ran, shows⟩ : ∃ channel, Transfer.reposition target
        { stream := entry.stream, host := files.host } = (.ok (), channel)
      ∧ channel.Mirrors descriptor.node ((PlainFile.opened before).goTo target) :=
    Transfer.reposition_shows regular direct whole sized inside
  have listed := FileTable.find?_setStream_self found channel.stream
  refine ⟨{ table := files.table.setStream id channel.stream, host := channel.host }, ?_,
    _, listed, rfl, shows⟩
  rw [setPosition_run found ordinary, taken]
  simp only [run, ran, FileTable.id_of_find? found]
  rfl

end Files

end Calculator
