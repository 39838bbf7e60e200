import Calculator.Proofs.OpenFile

/-!
# Positions and flushes

The position of a file counts the output that waits in its stream from where its descriptor stands. A
flush puts that output at the end of the file where the descriptor appends, and a flush of all files
moves every descriptor that output waits for, under whatever handles it is open. Where the output goes
where it is counted, and no other handle moves the descriptor, a flush is not seen in the position.
-/

namespace Calculator

def Stream.InPlace (stream : Stream) (descriptor : Descriptor) (content : Content) : Prop :=
  stream.pending = [] ∨ descriptor.appends = false ∨ descriptor.offset = content.size

/-- The flush of `other` is seen by `own`, which is open through `descriptor`: both share it, or the
output of both waits for the end of one file. -/
def Entry.Disturbs (host : Host) (other own : Entry) (descriptor : Descriptor) : Prop :=
  other.stream.pending ≠ []
    ∧ (other.stream.descriptor = own.stream.descriptor
      ∨ descriptor.appends = true ∧ own.stream.pending ≠ []
        ∧ host.node? other.stream.descriptor = some descriptor.node)

theorem Stream.InPlace.reached {stream : Stream} {descriptor : Descriptor} {content : Content}
    (inPlace : stream.InPlace descriptor content)
    (whole : descriptor.taken content stream.pending = stream.pending) :
    descriptor.reached content stream.pending = descriptor.offset + stream.pending.length := by
  rw [Descriptor.reached, whole]
  by_cases nothing : stream.pending = []
  · rw [if_pos nothing, nothing]
    rfl
  · have start : descriptor.writeStart content = descriptor.offset := by
      rw [Descriptor.writeStart]
      rcases inPlace.resolve_left nothing with plain | ended
      · rw [if_neg (by simp [plain])]
      · rw [ended, ite_self]
    rw [if_neg nothing, start]

theorem Stream.reached_end {stream : Stream} {descriptor : Descriptor} {content : Content}
    (elsewhere : ¬ stream.InPlace descriptor content)
    (whole : descriptor.taken content stream.pending = stream.pending) :
    descriptor.reached content stream.pending = content.size + stream.pending.length := by
  rw [InPlace, not_or, not_or, Bool.not_eq_false] at elsewhere
  obtain ⟨waits, appends, _⟩ := elsewhere
  rw [Descriptor.reached, whole, if_neg waits, Descriptor.writeStart, if_pos appends]

namespace Files

variable {files after : Files} {id other : FileId} {entry : Entry} {descriptor : Descriptor}
  {content : Content} {place : Nat}

def Undisturbed (files : Files) (id : FileId) (entry : Entry) (descriptor : Descriptor) : Prop :=
  ∀ other ∈ files.table.entries, other.id ≠ id → ¬ other.Disturbs files.host entry descriptor

/-- The file of a handle is a regular one, stands at `place`, and what waits in it is in place. -/
structure Stands (files : Files) (id : FileId) (place : Nat) (entry : Entry) (descriptor : Descriptor)
    (content : Content) : Prop where
  found : files.table.find? id = some entry
  regular : files.host.open? entry.stream.descriptor = some (descriptor, .file content)
  counted : descriptor.offset + entry.stream.pending.length - entry.stream.aheadCount = place
  inPlace : entry.stream.InPlace descriptor content

theorem Stands.tell (stands : files.Stands id place entry descriptor content) :
    (Files.tell id files).1 = .ok (place : Int) := by
  rw [tell_file stands.found stands.regular, stands.counted]

theorem Stands.flushed {channel : Channel} (stands : files.Stands id place entry descriptor content)
    (ran : Transfer.flush { stream := entry.stream, host := files.host } = (.ok (), channel)) :
    ∃ stored, Stands { table := files.table.setStream id channel.stream, host := channel.host } id place
      { entry with stream := channel.stream }
      { descriptor with offset := descriptor.offset + entry.stream.pending.length } stored
      ∧ channel.stream.pending = [] := by
  obtain ⟨stored, reached, whole, _⟩ := Transfer.flush_file stands.regular ran
  have stream := (Transfer.flush_ok ran).2
  have nothing : channel.stream.pending = [] := by rw [stream]
  rw [stands.inPlace.reached whole] at reached
  refine ⟨stored, ?_, nothing⟩
  constructor
  case found => exact FileTable.find?_setStream_self stands.found _
  case regular => exact reached
  case counted =>
    rw [← stands.counted, stream]
    rfl
  case inPlace => exact .inl nothing

/-- After a flush that succeeds a file stands where its output has been written. -/
theorem tell_flushed {channel : Channel} (found : files.table.find? id = some entry)
    (regular : files.host.open? entry.stream.descriptor = some (descriptor, .file content))
    (elsewhere : ¬ entry.stream.InPlace descriptor content)
    (ran : Transfer.flush { stream := entry.stream, host := files.host } = (.ok (), channel)) :
    (Files.tell id { table := files.table.setStream id channel.stream, host := channel.host }).1
      = .ok ((content.size + entry.stream.pending.length - entry.stream.aheadCount : Nat) : Int) := by
  obtain ⟨stored, reached, whole, _⟩ := Transfer.flush_file regular ran
  have stream := (Transfer.flush_ok ran).2
  rw [Stream.reached_end elsewhere whole] at reached
  rw [tell_file (FileTable.find?_setStream_self found _) reached, stream]
  rfl

/-- Once nothing waits in a file, others disturb it only through its own descriptor. -/
theorem Undisturbed.flushed {stream : Stream} {host : Host} {moved : Descriptor}
    (undisturbed : files.Undisturbed id entry descriptor)
    (same : stream.descriptor = entry.stream.descriptor) (nothing : stream.pending = []) :
    Undisturbed { table := files.table.setStream id stream, host } id { entry with stream } moved := by
  rintro other listed elsewhere ⟨waits, reaches⟩
  obtain ⟨former, before, rfl⟩ := List.mem_map.mp listed
  have apart : (former.id == id) = false := by
    rw [beq_eq_false_iff_ne]
    intro own
    simp [own] at elsewhere
  simp only [apart, Bool.false_eq_true, if_false, same] at elsewhere waits reaches
  rcases reaches with shared | ⟨_, output, _⟩
  · exact undisturbed former before elsewhere ⟨waits, .inl shared⟩
  · exact output nothing

theorem forAll_ok {operation : FileId → FileM Unit} {rest : List FileId}
    (answered : (forAll operation (id :: rest) files).1 = .ok ()) :
    (operation id files).1 = .ok ()
      ∧ (forAll operation rest (operation id files).2).1 = .ok () := by
  rw [forAll_cons] at answered
  rcases ran : operation id files with ⟨result, between⟩
  rw [ran] at answered
  cases result with
  | ok _ => exact ⟨rfl, answered⟩
  | error error => cases answered

/-- The flush of an entry under another handle leaves a file where it stood, and disturbs it no more. -/
theorem Stands.aside {own : Entry} (stands : files.Stands id place own descriptor content)
    (undisturbed : files.Undisturbed id own descriptor) (present : entry ∈ files.table.entries)
    (differs : entry.id ≠ id) :
    ∃ stored, (run entry Transfer.flush files).2.Stands id place own descriptor stored
      ∧ (run entry Transfer.flush files).2.Undisturbed id own descriptor := by
  have calm := undisturbed entry present differs
  rw [Entry.Disturbs, not_and_or, not_or] at calm
  have apart : entry.stream.descriptor ≠ own.stream.descriptor ∨ entry.stream.pending = [] :=
    calm.elim (fun idle => .inr (of_not_not idle)) fun away => .inl away.1
  have nodes := run_flush_node? entry files
  obtain ⟨host, _, emptied⟩ := flush_channel { stream := entry.stream, host := files.host }
  obtain ⟨stored, regular, same⟩ := Host.write_open?_ne stands.regular apart
  rw [run_files] at nodes ⊢
  generalize (Transfer.flush { stream := entry.stream, host := files.host }).2 = channel at *
  refine ⟨stored, ?_, ?_⟩
  · constructor
    case found =>
      rw [FileTable.find?_setStream_ne (Ne.symm differs)]
      exact stands.found
    case regular =>
      rw [host]
      exact regular
    case counted => exact stands.counted
    case inPlace =>
      by_cases waits : descriptor.appends = true ∧ own.stream.pending ≠ []
      · have unwritten : files.host.node? entry.stream.descriptor ≠ some descriptor.node
            ∨ entry.stream.pending = [] :=
          calm.elim (fun idle => .inr (of_not_not idle))
            fun away => .inl fun on => away.2 ⟨waits.1, waits.2, on⟩
        rw [same unwritten]
        exact stands.inPlace
      · rw [not_and_or, Bool.not_eq_true, not_not] at waits
        exact waits.elim (fun plain => .inr (.inl plain)) .inl
  · intro other listed elsewhere disturbs
    obtain ⟨former, before, rfl⟩ := List.mem_map.mp listed
    obtain ⟨waits, reaches⟩ := disturbs
    rw [nodes] at reaches
    split at waits
    · exact waits emptied
    · rename_i unchanged
      simp only [if_neg unchanged] at elsewhere reaches
      exact undisturbed former before elsewhere ⟨waits, reaches⟩

/-- A flush of any handle that succeeds where it is the own one leaves a file where it stood. -/
theorem Stands.flush (stands : files.Stands id place entry descriptor content)
    (undisturbed : files.Undisturbed id entry descriptor) (handle : FileId)
    (answered : (Files.flush handle files).1 = .ok ()) :
    ∃ entry descriptor stored, (Files.flush handle files).2.Stands id place entry descriptor stored
      ∧ (Files.flush handle files).2.Undisturbed id entry descriptor := by
  cases listed : files.table.find? handle with
  | none =>
      have missed : Files.flush handle files = (.error (.notOpen handle), files) :=
        Effect.bind_error (entry_missing listed)
      rw [missed] at answered
      cases answered
  | some flushed =>
      have own := FileTable.id_of_find? listed
      rw [flush_run listed] at answered ⊢
      split at answered
      · rename_i waits
        rw [if_pos waits]
        by_cases same : handle = id
        · subst same
          obtain rfl : flushed = entry := Option.some.inj (listed.symm.trans stands.found)
          obtain ⟨channel, ran, left⟩ := run_ok (Effect.run_of_answer answered)
          obtain ⟨stored, kept, nothing⟩ := stands.flushed ran
          have descriptor := congrArg Stream.descriptor (Transfer.flush_ok ran).2
          rw [left, own]
          exact ⟨_, _, stored, kept, undisturbed.flushed descriptor nothing⟩
        · obtain ⟨stored, kept, calm⟩ := stands.aside undisturbed (FileTable.mem_of_find? listed)
            (own ▸ same)
          exact ⟨entry, descriptor, stored, kept, calm⟩
      · rename_i idle
        rw [if_neg idle]
        exact ⟨entry, descriptor, content, stands, undisturbed⟩

theorem Stands.forAll (handles : List FileId) (stands : files.Stands id place entry descriptor content)
    (undisturbed : files.Undisturbed id entry descriptor)
    (answered : (forAll Files.flush handles files).1 = .ok ()) :
    ∃ entry descriptor stored,
      (forAll Files.flush handles files).2.Stands id place entry descriptor stored := by
  rw [forAll_files]
  induction handles generalizing files entry descriptor content with
  | nil => exact ⟨entry, descriptor, content, stands⟩
  | cons handle rest ih =>
      obtain ⟨first, others⟩ := forAll_ok answered
      obtain ⟨_, _, _, kept, calm⟩ := stands.flush undisturbed handle first
      exact ih kept calm others

end Files

/-- Where what waits in a regular file is in place, neither a flush of it nor asking for its size is
seen in its position, and a flush of all files is not where no other output disturbs it. Elsewhere the
position counts the output from where the descriptor stands, although the flush puts it behind what the
file holds. -/
theorem flush_keeps_position {files : Files} {id : FileId} {entry : Entry} {descriptor : Descriptor}
    {content : Content} (found : files.table.find? id = some entry)
    (regular : files.host.open? entry.stream.descriptor = some (descriptor, .file content)) :
    let waiting := entry.stream.pending.length
    let ahead := entry.stream.aheadCount
    (Files.tell id files).1 = .ok ((descriptor.offset + waiting - ahead : Nat) : Int)
      ∧ (entry.stream.InPlace descriptor content →
        ((Files.flush id files).1 = .ok () →
            (Files.tell id (Files.flush id files).2).1 = (Files.tell id files).1)
          ∧ (∀ size, (Files.size id files).1 = .ok size →
            (Files.tell id (Files.size id files).2).1 = (Files.tell id files).1)
          ∧ (files.Undisturbed id entry descriptor → (Files.flushAll files).1 = .ok () →
            (Files.tell id (Files.flushAll files).2).1 = (Files.tell id files).1))
      ∧ (¬ entry.stream.InPlace descriptor content →
        (entry.mode.writing = true → entry.stream.direction ≠ .read →
            (Files.flush id files).1 = .ok () →
            (Files.tell id (Files.flush id files).2).1
              = .ok ((content.size + waiting - ahead : Nat) : Int))
          ∧ ∀ size, (Files.size id files).1 = .ok size →
            (Files.tell id (Files.size id files).2).1
              = .ok ((content.size + waiting - ahead : Nat) : Int)) := by
  intro waiting ahead
  have before := Files.tell_file found regular
  refine ⟨before, fun inPlace => ?_, fun elsewhere =>
    ⟨fun writing written answered => ?_, fun size answered => ?_⟩⟩
  · have stands : files.Stands id _ entry descriptor content := ⟨found, regular, rfl, inPlace⟩
    rw [stands.tell]
    refine ⟨?_, ?_, ?_⟩
    · intro answered
      rw [Files.flush_run found] at answered ⊢
      split at answered
      · rename_i waits
        obtain ⟨channel, ran, left⟩ := Files.run_ok (Effect.run_of_answer answered)
        obtain ⟨stored, kept, _⟩ := stands.flushed ran
        rw [if_pos waits, left, FileTable.id_of_find? found]
        exact kept.tell
      · rename_i idle
        rw [if_neg idle]
        exact stands.tell
    · intro size answered
      obtain ⟨channel, ran, left⟩ := Files.size_ok found (Effect.run_of_answer answered)
      obtain ⟨stored, kept, _⟩ := stands.flushed ran
      rw [left]
      exact kept.tell
    · intro undisturbed answered
      obtain ⟨_, _, _, kept⟩ := stands.forAll files.table.ids undisturbed answered
      exact kept.tell
  · have waits : (entry.mode.writing && entry.stream.direction != .read) = true := by
      rw [writing, Bool.true_and, bne_iff_ne]
      exact written
    rw [Files.flush_run found, if_pos waits] at answered ⊢
    obtain ⟨channel, ran, left⟩ := Files.run_ok (Effect.run_of_answer answered)
    rw [left, FileTable.id_of_find? found]
    exact Files.tell_flushed found regular elsewhere ran
  · obtain ⟨channel, ran, left⟩ := Files.size_ok found (Effect.run_of_answer answered)
    rw [left]
    exact Files.tell_flushed found regular elsewhere ran

namespace FlushedSample

open FileCall

def written (mode : String) : Files :=
  afterAll [.openFile "a" mode, .ask (.write ⟨3⟩ [0x78, 0x79])] (Files.new OneFile.host 20 1024 false)

def updatedEntry : Entry where
  id := ⟨3⟩
  name := "a"
  mode := { base := .read, binary := false, update := true }
  node := some 10
  stream := { Stream.new 3 true with pending := [0x78, 0x79], direction := .write }

theorem updated_keeps_position :
    (Files.tell ⟨3⟩ (written "r+")).1 = .ok 2
      ∧ (Files.tell ⟨3⟩ (Files.flush ⟨3⟩ (written "r+")).2).1 = .ok 2
      ∧ (Files.tell ⟨3⟩ (Files.size ⟨3⟩ (written "r+")).2).1 = .ok 2
      ∧ (Files.tell ⟨3⟩ (Files.flushAll (written "r+")).2).1 = .ok 2 := by
  have found : (written "r+").table.find? ⟨3⟩ = some updatedEntry := by cbv
  have regular : (written "r+").host.open? updatedEntry.stream.descriptor
      = some ({ node := 10, offset := 0, appends := false },
          .file (Content.ofBytes [0x61, 0x62, 0x63, 0x64, 0x65])) := by cbv
  have place : (Files.tell ⟨3⟩ (written "r+")).1 = .ok 2 := by cbv
  have idle : (written "r+").table.entries.all
      (fun other => other.id == ⟨3⟩ || other.stream.pending.isEmpty) = true := by cbv
  obtain ⟨flushed, sized, all⟩ := (flush_keeps_position found regular).2.1 (.inr (.inl rfl))
  rw [place] at flushed sized all
  refine ⟨place, flushed ?_, sized 5 ?_, all ?_ ?_⟩
  · cbv
  · cbv
  · rintro other listed differs ⟨waits, _⟩
    have one := List.all_eq_true.mp idle other listed
    simp [differs, waits] at one
  · cbv

def shared : Files :=
  afterAll [.adoptInherited, .ask (.write ⟨3⟩ [0x78, 0x79]), .ask (.write ⟨4⟩ [0x7A])]
    (Files.new (OneFile.host.inheritFile 5 { reads := true, writes := true } "a") 20 1024 true)

/-- Output that waits for the end of a file is counted from its start, and a shared descriptor is moved
by the output of another handle. -/
theorem flush_moves_position :
    ((Files.tell ⟨3⟩ (written "a")).1 = .ok 2 ∧ (Files.flush ⟨3⟩ (written "a")).1 = .ok ()
        ∧ (Files.tell ⟨3⟩ (Files.flush ⟨3⟩ (written "a")).2).1 = .ok 7)
      ∧ (Files.tell ⟨3⟩ shared).1 = .ok 2 ∧ (Files.flushAll shared).1 = .ok ()
        ∧ (Files.tell ⟨3⟩ (Files.flushAll shared).2).1 = .ok 3 := by
  refine ⟨⟨?_, ?_, ?_⟩, ?_, ?_, ?_⟩ <;> cbv

end FlushedSample

end Calculator
