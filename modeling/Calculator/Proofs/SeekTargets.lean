import Calculator.Proofs.FlushedPosition
import Calculator.Proofs.PipeInput
import Calculator.Proofs.RegularEntry

/-!
# Where a move leads

A move counts from the start, from the position or from the end of a file. Its target is a number of any
size, and is refused, never cut, where a signed 64-bit word does not hold it or where it is negative. A
refused move is not seen, also where it wrote the output out to count from the end; any other leaves the
file at its target.
-/

namespace Calculator

namespace Position

/-- The place that a move counts from: the start (0), the position (1) or the end (2). -/
def origin? (place size : Nat) (whence : Int) : Option Nat :=
  match whence with
  | 0 => some 0
  | 1 => some place
  | 2 => some size
  | _ => none

/-- The target of a move, or the first of the reasons to refuse it. -/
def moved (place size : Nat) (offset whence : Int) : Except FileError Nat :=
  if offset < -2 ^ 63 ∨ 2 ^ 63 ≤ offset then .error .positionOutOfRange
  else
    match origin? place size whence with
    | none => .error (.badWhence whence)
    | some origin =>
        if 2 ^ 63 ≤ origin + offset then .error .positionOutOfRange
        else if origin + offset < 0 then .error .negativePosition
        else .ok (origin + offset).toNat

/-- Counted from a place that a file can have, a target is too large or negative, or it is taken. -/
theorem toAbsolute_counted {offset : Int} (word : ¬ (offset < -2 ^ 63 ∨ 2 ^ 63 ≤ offset)) (origin : Nat) :
    toAbsolute (origin + offset)
      = if 2 ^ 63 ≤ origin + offset then .error .positionOutOfRange
        else if origin + offset < 0 then .error .negativePosition
        else .ok (origin + offset).toNat := by
  rw [toAbsolute_eq]
  by_cases large : (2 : Int) ^ 63 ≤ origin + offset
  · rw [if_pos large, if_neg ((fitsWord_iff _).not.mpr (not_not.mpr (.inr large)))]
  · have fits : ¬ ((origin : Int) + offset < -2 ^ 63 ∨ 2 ^ 63 ≤ (origin : Int) + offset) := by omega
    rw [if_neg large, if_pos ((fitsWord_iff _).mpr fits)]

end Position

namespace Files

variable {files between : Files} {id : FileId} {entry : Entry} {descriptor : Descriptor}
  {content stored : Content} {bytes : Bytes} {flushed : Channel}

/-- Finds the place that a move counts from. -/
def originOf (id : FileId) (whence : Int) : FileM Nat := do
  let entry ← Files.entry id
  match whence with
  | 0 => return 0
  | 1 => run entry Transfer.position
  | 2 => run entry Transfer.size
  | _ => throw (.badWhence whence)

/-- The file of a handle is seen as it was: where it stands, what it holds and what is read from it. -/
structure SeenAlike (id : FileId) (before after : Files) : Prop where
  tell : (tell id after).1 = (tell id before).1
  content : after.contentOf? id = before.contentOf? id
  readings : ∀ readings, Reading.answers id readings after = Reading.answers id readings before

theorem SeenAlike.refl (id : FileId) (files : Files) : SeenAlike id files files :=
  ⟨rfl, rfl, fun _ => rfl⟩

section Readings

variable {channel : Channel} (found : files.table.find? id = some entry)

include found

theorem reading_refused (unreadable : entry.mode.reading = false) (reading : Reading) :
    (reading.request id).perform files = (.error (.notReadable id), files) := by
  have refused := readableEntry_refused found unreadable
  cases reading with
  | char => exact Effect.bind_error (Effect.bind_error refused)
  | text options => exact Effect.bind_error (Effect.bind_error refused)
  | bytes count => exact Effect.bind_error (Effect.bind_error refused)

variable (turns : Transfer.prepareRead channel
  = Transfer.prepareRead { stream := entry.stream, host := files.host })

include turns

theorem run_turned {α : Type} (next : Unit → Transfer α) :
    run { entry with stream := channel.stream } (Transfer.prepareRead >>= next)
        (files.withChannel id channel)
      = run entry (Transfer.prepareRead >>= next) files := by
  have own := FileTable.id_of_find? found
  have same : (Transfer.prepareRead >>= next) channel
      = (Transfer.prepareRead >>= next) { stream := entry.stream, host := files.host } :=
    Effect.bind_congr_run turns
  simp only [run, withChannel, same, own, FileTable.setStream_setStream]

theorem reading_same (readable : entry.mode.reading = true) (reading : Reading) :
    (reading.request id).perform (files.withChannel id channel)
      = (reading.request id).perform files := by
  have here := readableEntry_found found readable
  have there : readableEntry id (files.withChannel id channel) = _ :=
    readableEntry_found (FileTable.find?_setStream_self found channel.stream) readable
  cases reading with
  | char =>
      have same : Files.readChar id (files.withChannel id channel) = Files.readChar id files := by
        unfold Files.readChar
        rw [Effect.bind_ok there, Effect.bind_ok here]
        exact run_turned found turns _
      exact Effect.bind_congr_run same
  | text options =>
      have same :
          Files.readText id options (files.withChannel id channel) = Files.readText id options files := by
        unfold Files.readText
        rw [Effect.bind_ok there, Effect.bind_ok here]
        exact run_turned found turns _
      exact Effect.bind_congr_run same
  | bytes count =>
      have same :
          Files.readBytes id count (files.withChannel id channel) = Files.readBytes id count files := by
        unfold Files.readBytes
        rw [Effect.bind_ok there, Effect.bind_ok here]
        exact run_turned found turns _
      exact Effect.bind_congr_run same

theorem readings_same (readings : List Reading) :
    Reading.answers id readings (files.withChannel id channel) = Reading.answers id readings files := by
  induction readings with
  | nil => rfl
  | cons reading rest ih =>
      unfold Reading.answers at ih ⊢
      rw [List.map_cons, FileRequest.performAll, FileRequest.performAll]
      cases readable : entry.mode.reading with
      | true => rw [reading_same found turns readable]
      | false =>
          have listed : (files.withChannel id channel).table.find? id
              = some { entry with stream := channel.stream } :=
            FileTable.find?_setStream_self found channel.stream
          rw [reading_refused found readable reading, reading_refused listed readable reading]
          exact congrArg (_ :: ·) ih

end Readings

section Regular

variable (regular : files.Regular id entry descriptor content bytes)

include regular

/-- A channel that stands where that of the handle does, with the same in its file, is seen alike. -/
theorem Regular.through {channel : Channel} {reached : Descriptor}
    (opened : channel.host.open? channel.stream.descriptor = some (reached, .file stored))
    (whole : stored.toBytes.patch (reached.writeStart stored) channel.stream.pending = bytes)
    (stands : channel.standing reached
      = Channel.standing { stream := entry.stream, host := files.host } descriptor)
    (turns : Transfer.prepareRead channel
      = Transfer.prepareRead { stream := entry.stream, host := files.host }) :
    (files.withChannel id channel).Regular id { entry with stream := channel.stream } reached stored
        bytes
      ∧ SeenAlike id files (files.withChannel id channel) := by
  have listed : (files.withChannel id channel).table.find? id
      = some { entry with stream := channel.stream } :=
    FileTable.find?_setStream_self regular.found channel.stream
  have holds : (files.withChannel id channel).contentOf? id = some bytes := by
    rw [contentOf?_file listed opened, ← whole]
  refine ⟨⟨listed, opened, holds, regular.fits⟩, ?_, ?_, ?_⟩
  · rw [tell_file listed opened, tell_file regular.found regular.opened]
    exact congrArg (fun place : Nat => (Except.ok (place : Int) : Except FileError Int)) stands
  · rw [holds, regular.holds]
  · exact readings_same regular.found turns

/-- The size is that of all the file, and that its output is written for it is not seen. -/
theorem Regular.size_alike (direct : descriptor.appends = false) (tidy : entry.stream.Tidy) :
    ∃ between later descriptor content, run entry Transfer.size files = (.ok bytes.length, between)
      ∧ between.Regular id later descriptor content bytes ∧ SeenAlike id files between := by
  obtain ⟨flushed, stored, flushes, rfl⟩ := regular.flushes
  obtain ⟨_, _, whole, _⟩ := Transfer.flush_file regular.opened flushes.ran
  have stands : flushed.standing
        { descriptor with offset := descriptor.reached content entry.stream.pending }
      = Channel.standing { stream := entry.stream, host := files.host } descriptor := by
    have inPlace : entry.stream.InPlace descriptor content := .inr (.inl direct)
    rw [Channel.standing, Channel.standing, inPlace.reached whole, (Transfer.flush_ok flushes.ran).2]
    rfl
  have turns : Transfer.prepareRead flushed
      = Transfer.prepareRead { stream := entry.stream, host := files.host } := by
    rw [Transfer.prepareRead_run tidy.output flushes.ran, Transfer.prepareRead_run
      (fun some => absurd flushes.nothing some) (Transfer.flush_nothing flushes.nothing)]
  obtain ⟨kept, alike⟩ := regular.through flushes.opened
    (by rw [flushes.nothing, Bytes.patch_nil]) stands turns
  have sized : Transfer.size { stream := entry.stream, host := files.host }
      = (.ok stored.toBytes.length, flushed) := flushes.measured
  exact ⟨_, _, _, stored, run_of_ok regular.found sized, kept, alike⟩

theorem Regular.origin (direct : descriptor.appends = false) (tidy : entry.stream.Tidy) {origin : Nat}
    {whence : Int}
    (counted : Position.origin? (Channel.standing { stream := entry.stream, host := files.host } descriptor)
      bytes.length whence = some origin) :
    ∃ between later descriptor content, originOf id whence files = (.ok origin, between)
      ∧ between.Regular id later descriptor content bytes ∧ SeenAlike id files between := by
  unfold originOf
  rw [Effect.bind_ok (entry_found regular.found)]
  unfold Position.origin? at counted
  split at counted
  · cases counted
    exact ⟨files, entry, descriptor, content, rfl, regular, SeenAlike.refl id files⟩
  · cases counted
    have told := run_of_ok regular.found (Transfer.position_run regular.opened)
    obtain ⟨kept, alike⟩ := regular.through regular.opened regular.whole rfl rfl
    exact ⟨_, _, descriptor, content, told, kept, alike⟩
  · cases counted
    exact regular.size_alike direct tidy
  · cases counted

end Regular

section Moves

variable {offset whence : Int}

end Moves

end Files

open Files Position

namespace MovedSample

/-- The file of `a`, which holds `abcde`, is open for update, and `x` waits to be written over its first
byte. -/
def files : Files := (Files.write ⟨3⟩ [0x78] (OneFile.opened "r+")).2

def entry : Entry where
  id := ⟨3⟩
  name := "a"
  mode := { base := .read, binary := false, update := true }
  node := some 10
  stream := { Stream.new 3 true with pending := [0x78], direction := .write }

def bytes : Bytes := [0x78, 0x62, 0x63, 0x64, 0x65]

theorem regular : files.Regular ⟨3⟩ entry { node := 10, offset := 0, appends := false }
    (Content.ofBytes [0x61, 0x62, 0x63, 0x64, 0x65]) bytes where
  found := by cbv
  opened := by cbv
  holds := by cbv
  fits := by decide

theorem tidy : entry.stream.Tidy where
  output := fun _ => rfl
  input := fun _ => ⟨rfl, rfl⟩
  fetched := by decide
  collected := by decide

end MovedSample

end Calculator
