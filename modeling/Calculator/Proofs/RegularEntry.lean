import Calculator.Proofs.OpenEntry
import Calculator.Proofs.PlacedStreams

/-!
# Open regular files

A handle on a regular file that can hold all the output that waits in its stream. Asking for its size
writes the output out, and then the file stands on the host as it is seen through the handle. A transfer
that leads the stream to a place leaves the file there and its content as it was.
-/

namespace Calculator

theorem Descriptor.reached_le {descriptor : Descriptor} (within : descriptor.offset ≤ Content.maxSize)
    (content : Content) (bytes : Bytes) : descriptor.reached content bytes ≤ Content.maxSize := by
  rw [reached]
  split
  · exact within
  · rename_i something
    have some_byte : 0 < (descriptor.taken content bytes).length := List.length_pos_iff.mpr something
    have room : (descriptor.taken content bytes).length
        ≤ Content.maxSize - descriptor.writeStart content := List.length_take_le _ _
    omega

def Channel.standing (channel : Channel) (descriptor : Descriptor) : Nat :=
  descriptor.offset + channel.stream.pending.length - channel.stream.aheadCount

theorem Transfer.position_run {channel : Channel} {descriptor : Descriptor} {content : Content}
    (opened : channel.host.open? channel.stream.descriptor = some (descriptor, .file content)) :
    position channel = (.ok (channel.standing descriptor), channel) := by
  simp only [position, Host.tell_file opened, Channel.standing]

namespace Files

/-- The handle is open on a regular file. What the file holds with the output that waits in its stream
is `bytes`, which is no more than a file can hold. -/
structure Regular (files : Files) (id : FileId) (entry : Entry) (descriptor : Descriptor)
    (content : Content) (bytes : Bytes) : Prop where
  found : files.table.find? id = some entry
  opened : files.host.open? entry.stream.descriptor = some (descriptor, .file content)
  holds : files.contentOf? id = some bytes
  fits : bytes.length ≤ Content.maxSize

variable {files : Files} {id : FileId} {entry : Entry} {descriptor : Descriptor} {content : Content}
  {bytes : Bytes}

/-- The output of the handle can be written, and then its stream and the host are as in `flushed`, where
the file is `stored`. -/
structure Flushes (files : Files) (id : FileId) (entry : Entry) (flushed : Channel)
    (descriptor : Descriptor) (stored : Content) : Prop where
  found : files.table.find? id = some entry
  ran : Transfer.flush { stream := entry.stream, host := files.host } = (.ok (), flushed)
  opened : flushed.host.open? flushed.stream.descriptor = some (descriptor, .file stored)

/-- The file is at a place and holds `bytes`, and the nodes of the host are as in `host`. -/
structure Lands (after : Files) (id : FileId) (host : Host) (bytes : Bytes) (place : Nat) : Prop where
  content : after.contentOf? id = some bytes
  tell : (tell id after).1 = .ok (place : Int)
  nodes : after.host.nodes = host.nodes

/-- The files once a transfer has left the stream of a handle and the host as they are in a channel. -/
def withChannel (files : Files) (id : FileId) (channel : Channel) : Files :=
  { table := files.table.setStream id channel.stream, host := channel.host }

theorem Regular.whole (regular : files.Regular id entry descriptor content bytes) :
    content.toBytes.patch (descriptor.writeStart content) entry.stream.pending = bytes := by
  have holds := regular.holds
  rw [contentOf?_file regular.found regular.opened] at holds
  exact Option.some.inj holds

theorem Regular.flushes (regular : files.Regular id entry descriptor content bytes) :
    ∃ flushed stored, files.Flushes id entry flushed
        { descriptor with offset := descriptor.reached content entry.stream.pending } stored
      ∧ stored.toBytes = bytes := by
  obtain ⟨flushed, ran⟩ : ∃ flushed,
      Transfer.flush { stream := entry.stream, host := files.host } = (.ok (), flushed) :=
    Transfer.flush_fits regular.opened regular.whole regular.fits
  obtain ⟨stored, opened, _, held⟩ := Transfer.flush_file regular.opened ran
  exact ⟨flushed, stored, ⟨regular.found, ran, opened⟩, held.trans regular.whole⟩

theorem run_of_ok {α : Type} {transfer : Transfer α} {result : α} {channel : Channel}
    (found : files.table.find? id = some entry)
    (ran : transfer { stream := entry.stream, host := files.host } = (.ok result, channel)) :
    run entry transfer files = (.ok result, files.withChannel id channel) := by
  simp only [run, ran, FileTable.id_of_find? found]
  rfl

theorem run_of_error {α : Type} {transfer : Transfer α} {fault : Fault}
    (failed : (transfer { stream := entry.stream, host := files.host }).1 = .error fault) :
    (run entry transfer files).1 = .error (.host fault) := by
  show (transfer { stream := entry.stream, host := files.host }).1.mapError FileError.host = _
  rw [failed]
  rfl

theorem withChannel_withChannel (files : Files) (id : FileId) (first second : Channel) :
    (files.withChannel id first).withChannel id second = files.withChannel id second := by
  rw [withChannel, withChannel, withChannel, FileTable.setStream_setStream]

section Flushes

variable {flushed after : Channel} {stored : Content} {needle : Bytes}
  (flushes : files.Flushes id entry flushed descriptor stored)

include flushes

theorem Flushes.nothing : flushed.stream.pending = [] := by
  rw [(Transfer.flush_ok flushes.ran).2]

theorem Flushes.standing_le (within : descriptor.offset ≤ Content.maxSize) :
    flushed.standing descriptor ≤ Content.maxSize := by
  rw [Channel.standing, flushes.nothing]
  exact Nat.le_trans (Nat.sub_le _ _) within

theorem Flushes.again :
    (files.withChannel id flushed).Flushes id { entry with stream := flushed.stream } flushed descriptor
      stored where
  found := FileTable.find?_setStream_self flushes.found flushed.stream
  ran := Transfer.flush_nothing flushes.nothing
  opened := flushes.opened

theorem Flushes.contentOf?_written : (files.withChannel id flushed).contentOf? id = some stored.toBytes := by
  rw [contentOf?_file flushes.again.found flushes.again.opened]
  exact congrArg some ((congrArg _ flushes.nothing).trans (Bytes.patch_nil _ _))

theorem Flushes.measured :
    Transfer.size { stream := entry.stream, host := files.host }
      = (.ok stored.toBytes.length, flushed) := by
  unfold Transfer.size
  rw [Effect.bind_ok flushes.ran, Host.size, flushes.opened, ← Content.size_eq]

theorem Flushes.size_run :
    size id files = (.ok (stored.toBytes.length : Int), files.withChannel id flushed) := by
  unfold size
  rw [Effect.bind_ok (entry_found flushes.found),
    Effect.bind_ok (run_of_ok flushes.found flushes.measured)]
  rfl

theorem Flushes.tell_run :
    tell id (files.withChannel id flushed)
      = (.ok (flushed.standing descriptor : Int), files.withChannel id flushed) := by
  have again := flushes.again
  have stands := run_of_ok again.found (Transfer.position_run again.opened)
  unfold tell
  rw [Effect.bind_ok (entry_found again.found), Effect.bind_ok stands, withChannel_withChannel]
  rfl

theorem Flushes.lands {place : Nat}
    (placed : after.Placed flushed.turned descriptor stored place) :
    (files.withChannel id after).Lands id flushed.host stored.toBytes place := by
  have listed : (files.withChannel id after).table.find? id = some { entry with stream := after.stream } :=
    FileTable.find?_setStream_self flushes.found after.stream
  constructor
  · rw [contentOf?_file listed placed.opened]
    exact congrArg some ((congrArg _ placed.written).trans (Bytes.patch_nil _ _))
  · rw [tell_file listed placed.opened]
    exact congrArg (fun place : Nat => (Except.ok (place : Int) : Except FileError Int)) placed.counted
  · exact placed.nodes_eq

end Flushes

end Files

end Calculator
