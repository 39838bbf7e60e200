import Calculator.Host.Start
import Calculator.Proofs.RegularFile
import Mathlib

/-!
# Calls on an open file

What a call on an open handle does, as a transfer on its stream, and which errors it can answer. A file
of its table on a regular file has a content, which the output that waits in its stream is part of, and
a position.
-/

namespace Calculator

namespace FileTable

theorem setStream_setStream (table : FileTable) (id : FileId) (first second : Stream) :
    (table.setStream id first).setStream id second = table.setStream id second := by
  rw [setStream, update, setStream, update, setStream, update]
  congr 1
  rw [List.map_map]
  apply List.map_congr_left
  intro entry _
  by_cases own : entry.id = id <;> simp [own]

end FileTable

/-- A position is refused or counted, never cut. -/
theorem Position.toAbsolute_eq (position : Int) :
    toAbsolute position
      = if Number.fitsWord position then
          if position < 0 then .error .negativePosition else .ok position.toNat
        else .error .positionOutOfRange := by
  unfold toAbsolute toOffset
  cases Number.fitsWord position <;> rfl

theorem Position.fitsWord_iff (position : Int) :
    Number.fitsWord position = true ↔ ¬ (position < -2 ^ 63 ∨ 2 ^ 63 ≤ position) := by
  simp only [Number.fitsWord, Bool.and_eq_true, decide_eq_true_eq]
  omega

theorem Position.toAbsolute_natCast {position : Nat} (fits : position < 2 ^ 63) :
    toAbsolute (position : Int) = .ok position := by
  rw [toAbsolute_eq, if_pos ((fitsWord_iff _).mpr (by omega)),
    if_neg (Int.not_lt.mpr (Int.natCast_nonneg position)), Int.toNat_natCast]

theorem Position.nonneg_of_toAbsolute {position : Int} {target : Nat}
    (taken : toAbsolute position = .ok target) : 0 ≤ position := by
  rw [toAbsolute_eq] at taken
  split at taken
  · split at taken
    · cases taken
    · omega
  · cases taken

def FileError.misses : FileError → Bool
  | .notOpen _ | .notReadable _ | .notWritable _ => true
  | _ => false

namespace Files

variable {files after : Files} {id : FileId} {entry : Entry} {error : FileError} {α : Type}

/-- What the file of a handle holds once the output that waits in its stream is written. -/
def contentOf? (files : Files) (id : FileId) : Option Bytes :=
  match files.table.find? id with
  | none => none
  | some entry =>
      match files.host.open? entry.stream.descriptor with
      | some (descriptor, .file content) =>
          some (content.toBytes.patch (descriptor.writeStart content) entry.stream.pending)
      | _ => none

theorem contentOf?_file {descriptor : Descriptor} {content : Content}
    (found : files.table.find? id = some entry)
    (regular : files.host.open? entry.stream.descriptor = some (descriptor, .file content)) :
    files.contentOf? id
      = some (content.toBytes.patch (descriptor.writeStart content) entry.stream.pending) := by
  simp only [contentOf?, found, regular]

theorem run_ok {transfer : Transfer α} {result : α} (ran : run entry transfer files = (.ok result, after)) :
    ∃ channel, transfer { stream := entry.stream, host := files.host } = (.ok result, channel)
      ∧ after = { table := files.table.setStream entry.id channel.stream, host := channel.host } := by
  unfold run at ran
  rcases transferred : transfer { stream := entry.stream, host := files.host } with ⟨answer, channel⟩
  rw [transferred] at ran
  cases answer <;> cases ran
  exact ⟨channel, rfl, rfl⟩

theorem run_misses {transfer : Transfer α} (failed : (run entry transfer files).1 = .error error) :
    error.misses = false := by
  unfold run at failed
  rcases transferred : transfer { stream := entry.stream, host := files.host } with ⟨answer, channel⟩
  rw [transferred] at failed
  cases answer <;> cases failed
  rfl

theorem readBytes_refused (files : Files) (found : files.table.find? id = some entry)
    (unreadable : entry.mode.reading = false) (count : Nat) :
    readBytes id count files = (.error (.notReadable id), files) :=
  Effect.bind_error (readableEntry_refused found unreadable)

theorem write_refused (files : Files) (found : files.table.find? id = some entry)
    (unwritable : entry.mode.writing = false) (bytes : Bytes) :
    write id bytes files = (.error (.notWritable id), files) :=
  Effect.bind_error (writableEntry_refused found unwritable)

section Found

variable (found : files.table.find? id = some entry)

include found

theorem tell_file {descriptor : Descriptor} {content : Content}
    (regular : files.host.open? entry.stream.descriptor = some (descriptor, .file content)) :
    (tell id files).1 = .ok
      ((descriptor.offset + entry.stream.pending.length - entry.stream.aheadCount : Nat) : Int) := by
  unfold tell
  rw [Effect.bind_ok (entry_found found)]
  have stands : run entry Transfer.position files
      = (.ok (descriptor.offset + entry.stream.pending.length - entry.stream.aheadCount),
        { files with table := files.table.setStream entry.id entry.stream }) := by
    simp only [run, Transfer.position, Host.tell_file regular]
    rfl
  rw [Effect.bind_ok stands]
  rfl

theorem size_ok {size : Int} (sized : Files.size id files = (.ok size, after)) :
    ∃ channel, Transfer.flush { stream := entry.stream, host := files.host } = (.ok (), channel)
      ∧ after = { table := files.table.setStream id channel.stream, host := channel.host } := by
  unfold Files.size at sized
  rw [Effect.bind_ok (entry_found found)] at sized
  obtain ⟨length, between, ran, returned⟩ := Effect.steps_of_ok sized
  cases returned
  obtain ⟨channel, measured, rfl⟩ := run_ok ran
  obtain ⟨_, flushed, written, asked⟩ := Effect.steps_of_ok measured
  obtain rfl : flushed = channel := congrArg Prod.snd asked
  exact ⟨flushed, written, by rw [FileTable.id_of_find? found]⟩

theorem size_misses (failed : (Files.size id files).1 = .error error) : error.misses = false := by
  unfold Files.size at failed
  rw [Effect.bind_ok (entry_found found)] at failed
  rcases ran : run entry Transfer.size files with ⟨answer, between⟩
  cases answer with
  | ok length =>
      rw [Effect.bind_ok ran] at failed
      cases failed
  | error reason =>
      rw [Effect.bind_error ran] at failed
      cases failed
      exact run_misses (congrArg Prod.fst ran)

variable (ordinary : id.isStandard = false)

include ordinary

/-- A change of position checks the position and then moves the stream. -/
theorem setPosition_run (position : Int) :
    setPosition id position files
      = match Position.toAbsolute position with
        | .ok target => run entry (Transfer.reposition target) files
        | .error error => (.error error, files) := by
  unfold setPosition
  rw [if_neg (by simp [ordinary])]
  cases Position.toAbsolute position with
  | error error => rfl
  | ok target => exact Effect.bind_ok (entry_found found)

theorem setPosition_ok {position : Int} (moved : setPosition id position files = (.ok (), after)) :
    Position.toAbsolute position = .ok position.toNat
      ∧ ∃ channel, Transfer.reposition position.toNat { stream := entry.stream, host := files.host }
          = (.ok (), channel)
        ∧ after = { table := files.table.setStream id channel.stream, host := channel.host } := by
  rw [setPosition_run found ordinary] at moved
  cases checked : Position.toAbsolute position with
  | error error =>
      rw [checked] at moved
      cases moved
  | ok target =>
      rw [checked] at moved
      obtain rfl := Position.toNat_of_toAbsolute checked
      obtain ⟨channel, ran, rfl⟩ := run_ok moved
      exact ⟨rfl, channel, ran, by rw [FileTable.id_of_find? found]⟩

/-- A change of position writes the output out and leaves a regular file where it was told to. -/
theorem setPosition_file {descriptor : Descriptor} {content : Content} {position : Int}
    (regular : files.host.open? entry.stream.descriptor = some (descriptor, .file content))
    (moved : setPosition id position files = (.ok (), after)) :
    after.contentOf? id = files.contentOf? id ∧ (tell id after).1 = .ok position := by
  obtain ⟨taken, channel, ran, rfl⟩ := setPosition_ok found ordinary moved
  have nonneg := Position.nonneg_of_toAbsolute taken
  obtain ⟨stored, reached, bytes⟩ := Transfer.reposition_file regular ran
  obtain ⟨_, _, _, stream⟩ := Transfer.reposition_ok ran
  have listed := FileTable.find?_setStream_self found channel.stream
  constructor
  · rw [contentOf?_file listed reached, contentOf?_file found regular, ← bytes, stream,
      Bytes.patch_nil]
  · rw [tell_file listed reached, stream]
    simpa [Stream.aheadCount] using Int.max_eq_left nonneg

theorem setPosition_misses {position : Int} (failed : (setPosition id position files).1 = .error error) :
    error.misses = false := by
  rw [setPosition_run found ordinary] at failed
  cases checked : Position.toAbsolute position with
  | ok target =>
      rw [checked] at failed
      exact run_misses failed
  | error reason =>
      rw [checked] at failed
      cases failed
      rw [Position.toAbsolute_eq] at checked
      split at checked
      · split at checked <;> cases checked
        rfl
      · cases checked
        rfl

end Found

end Files

namespace OneFile

def host : Host :=
  ((Host.start none none [] true).store "a" [0x61, 0x62, 0x63, 0x64, 0x65]).2

def opened (mode : String) : Files :=
  (Files.openFile "a" mode (Files.new host 20 1024 false)).2

end OneFile

end Calculator
