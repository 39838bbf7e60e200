import Calculator.Proofs.Settling

/-!
# Buffered files are plain files

Files that were just opened, on regular files of their own and not for appending, answer every run of
requests as plain files do, and the host stores what the plain files hold once the output is written
out. The host has a largest file and refuses to go past it; a refused move leaves a file where its
buffers happened to end, which no plain file can tell.
-/

namespace Calculator

/-- The files of `handles` as they are when they were just opened. Each is kept in a node of its own,
and no other file of the table is open on that node. -/
structure Files.Opened (files : Files) (home : FileId → NodeId) (handles : List FileId)
    (plain : PlainFiles) : Prop where
  chunk : 0 < files.table.readChunk
  distinct : files.table.ids.Nodup
  closed : ∀ id ∈ handles, files.table.find? id = none → plain id = none
  opened : ∀ id ∈ handles, ∀ entry, files.table.find? id = some entry →
    ∃ descriptor buffered disk, entry.stream = Stream.new descriptor buffered
      ∧ files.host.Holds descriptor (home id) 0 disk ∧ disk.length ≤ Content.maxSize
      ∧ plain id = some { mode := entry.mode, file := .opened disk }
      ∧ files.Alone id (home id)

theorem Stream.new_mirrors (descriptor : DescriptorId) (buffered : Bool) {disk : Bytes}
    (sized : disk.length ≤ Content.maxSize) :
    (Stream.new descriptor buffered).Mirrors 0 disk (.opened disk) where
  content := (Bytes.patch_nil disk 0).symm
  position := rfl
  ahead := rfl
  pushed := rfl
  eof := rfl
  direction := rfl
  output := absurd rfl
  direct := fun _ => rfl
  input := fun _ => ⟨rfl, rfl⟩
  room := Nat.zero_le _
  fits := Nat.zero_le _
  sized := sized

theorem Files.Opened.mirrors {files : Files} {home : FileId → NodeId} {handles : List FileId}
    {plain : PlainFiles} (opened : files.Opened home handles plain) :
    files.Mirrors home handles plain where
  chunk := opened.chunk
  distinct := opened.distinct
  closed := opened.closed
  shows := by
    intro id tracked entry found
    obtain ⟨descriptor, buffered, disk, stream, holds, sized, visible, alone⟩ :=
      opened.opened id tracked entry found
    refine ⟨_, visible, ?_⟩
    constructor
    case mode => rfl
    case outward =>
      intro writes
      cases writes
    case mirrors =>
      rw [stream]
      exact ⟨0, disk, holds, Stream.new_mirrors descriptor buffered sized⟩
    case alone =>
      rw [FileTable.id_of_find? found]
      exact alone

/-- The ways in which the output of a file is written out. -/
inductive Ending where
  | flush
  | close
  | closeAll
  | shutdown
  deriving DecidableEq, Repr

namespace Ending

def run (id : FileId) : Ending → Files → Files
  | flush, files => (Files.flush id files).2
  | close, files => (Files.close id files).2
  | closeAll, files => (Files.closeAll files).2
  | shutdown, files => files.shutdown

def reaches (id : FileId) : Ending → Bool
  | flush | shutdown => true
  | close | closeAll => !id.isStandard

theorem run_stores {waits : Files → Prop} {files : Files} {id : FileId} {node : NodeId}
    {content : Bytes} (awaits : Files.Awaits waits id node content) (waiting : waits files)
    (ending : Ending) (reached : ending.reaches id = true) :
    (ending.run id files).host.Stores node content := by
  cases ending with
  | flush => exact awaits.flush_stores waiting
  | close => exact (awaits.close_settles waiting (by simpa [reaches] using reached)).1
  | closeAll => exact (awaits.closeAll_settles waiting (by simpa [reaches] using reached)).1
  | shutdown => exact (awaits.shutdown_settles waiting).1

end Ending

namespace Sample

def host : Host where
  nodes := [.file (Content.ofBytes [0x61, 0x62, 0x63, 0x64, 0x65, 0x66]),
    .file (Content.ofBytes [0x78, 0x79])]
  descriptors := [{ node := 0, offset := 0, appends := false },
    { node := 1, offset := 0, appends := false }]
  inherited := []
  home := none
  searchPath := none

def update : Mode where
  base := .read
  binary := false
  update := true

/-- Two files, open for update under the handles 3 and 4. -/
def files : Files where
  table :=
    { entries := [Files.newEntry host ⟨3⟩ 0 "a" update true, Files.newEntry host ⟨4⟩ 1 "b" update true]
      lastId := 4
      maxFiles := 16
      readChunk := 2 }
  host := host

def home (id : FileId) : NodeId :=
  id.number - 3

def plain : PlainFiles
  | ⟨3⟩ => some { mode := update, file := .opened [0x61, 0x62, 0x63, 0x64, 0x65, 0x66] }
  | ⟨4⟩ => some { mode := update, file := .opened [0x78, 0x79] }
  | _ => none

theorem files_opened : files.Opened home [⟨3⟩, ⟨4⟩] plain where
  chunk := by decide
  distinct := by decide
  closed := by
    intro id tracked missing
    simp only [List.mem_cons, List.not_mem_nil, or_false] at tracked
    rcases tracked with rfl | rfl <;> cases missing
  opened := by
    intro id tracked entry found
    simp only [List.mem_cons, List.not_mem_nil, or_false] at tracked
    rcases tracked with rfl | rfl <;> cases found
    · refine ⟨0, true, _, rfl, ⟨_, rfl, rfl, rfl⟩, by decide, rfl, ?_⟩
      intro other present differs
      simp only [files, List.mem_cons, List.not_mem_nil, or_false] at present
      rcases present with rfl | rfl
      · exact absurd rfl differs
      · decide
    · refine ⟨1, true, _, rfl, ⟨_, rfl, rfl, rfl⟩, by decide, rfl, ?_⟩
      intro other present differs
      simp only [files, List.mem_cons, List.not_mem_nil, or_false] at present
      rcases present with rfl | rfl
      · decide
      · exact absurd rfl differs

def requests : List FileRequest :=
  [.readChar ⟨3⟩, .unreadChar ⟨3⟩ 0x7A, .write ⟨4⟩ [0x31, 0x32, 0x33], .readText ⟨3⟩ .word,
    .isEof ⟨3⟩, .seek ⟨3⟩ (-4) 2, .write ⟨3⟩ [0x39], .tell ⟨3⟩, .searchBack ⟨4⟩ [0x33] 9 0]

end Sample

open FileRequest

/-- Every answer is the plain one, and every file is stored as the plain one in the end. -/
theorem buffered_files_are_plain {files : Files} {home : FileId → NodeId} {handles : List FileId}
    {plain : PlainFiles} (opened : files.Opened home handles plain) (requests : List FileRequest)
    (tracked : ∀ request ∈ requests, request.handle ∈ handles)
    (pushes : along pushesInside requests plain = true)
    (stays : along staysInside requests plain = true) :
    (performAll requests files).1 = (answerAll requests plain).1
      ∧ ∀ id ∈ handles, ∀ shown, (answerAll requests plain).2 id = some shown →
        ∀ ending : Ending, ending.reaches id = true →
          (ending.run id (performAll requests files).2).host.Stores (home id) shown.file.content := by
  obtain ⟨answers, mirrors⟩ := performAll_mirrors opened.mirrors requests tracked pushes stays
  refine ⟨answers, ?_⟩
  intro id member shown visible ending reached
  exact ending.run_stores (Files.mirrors_await home visible) (mirrors.single member) reached

theorem buffered_sample_is_plain :
    (performAll Sample.requests Sample.files).1
        = [.ok (.byte (some 0x61)), .ok .done, .ok .done,
          .ok (.text (some [0x7A, 0x62, 0x63, 0x64, 0x65, 0x66])), .ok (.flag true), .ok .done,
          .ok .done, .ok (.number 3), .ok (.place (some 2))]
      ∧ (Ending.shutdown.run ⟨3⟩ (performAll Sample.requests Sample.files).2).host.Stores 0
          [0x61, 0x62, 0x39, 0x64, 0x65, 0x66] := by
  have run := buffered_files_are_plain Sample.files_opened Sample.requests (by decide) (by decide)
    (by decide)
  exact ⟨run.1, run.2 ⟨3⟩ (by decide) _ rfl .shutdown rfl⟩

/-- A move past the largest file is refused, and the file is then where its buffer ended. -/
theorem refused_move_shows_buffer :
    Sample.files.Opened Sample.home [⟨3⟩, ⟨4⟩] Sample.plain
      ∧ along pushesInside [.readChar ⟨3⟩, .setPosition ⟨3⟩ 4611686018427387904, .tell ⟨3⟩]
          Sample.plain = true
      ∧ (performAll [.readChar ⟨3⟩, .setPosition ⟨3⟩ 4611686018427387904, .tell ⟨3⟩]
          Sample.files).1
        = [.ok (.byte (some 0x61)), .error (.host .invalidArgument), .ok (.number 6)]
      ∧ (answerAll [.readChar ⟨3⟩, .setPosition ⟨3⟩ 4611686018427387904, .tell ⟨3⟩] Sample.plain).1
        = [.ok (.byte (some 0x61)), .ok .done, .ok (.number 4611686018427387904)] :=
  ⟨Sample.files_opened, rfl, rfl, rfl⟩

end Calculator
