import Calculator.Proofs.PendingOutput
import Calculator.Proofs.RegularEntry
import Calculator.Proofs.RepositionedPipes

/-!
# Rewinding all files

All files are rewound in the order in which they were opened, up to the first one that fails and is no
standard stream. So a regular file is at its start afterwards, with clear flags and its output on the
host, just where its turn came and the host took the output; behind a pipe that was adopted its turn
does not come.
-/

namespace Calculator

def Stream.rewound (stream : Stream) : Stream :=
  { stream with
    ahead := [], pushback := [], pending := [], eof := false, failed := false, direction := .none }

namespace Transfer

variable (channel : Channel) {descriptor : Descriptor} {content : Content} {fault : Fault}

/-- A regular file whose output the host takes is rewound. -/
theorem rewind_taken
    (opened : channel.host.open? channel.stream.descriptor = some (descriptor, .file content))
    (taken : (channel.host.write channel.stream.descriptor channel.stream.pending).1 = .ok ()) :
    ∃ after stored, rewind channel = (.ok (), after) ∧ after.stream = channel.stream.rewound
      ∧ after.host.open? channel.stream.descriptor = some ({ descriptor with offset := 0 }, .file stored)
      ∧ stored.toBytes
        = content.toBytes.patch (descriptor.writeStart content) channel.stream.pending := by
  have ran := flush_taken channel taken
  generalize flushes : ({
    stream := { channel.stream with pending := [] }
    host := (channel.host.write channel.stream.descriptor channel.stream.pending).2 } : Channel)
      = flushed at ran
  obtain ⟨stored, reached, _, bytes⟩ := flush_file opened ran
  have stream := (flush_ok ran).2
  have moved : request (fun host descriptor => host.seek descriptor 0)
      { flushed with stream := { flushed.stream with ahead := [], pushback := [], eof := false } }
      = (.ok (), {
        stream := { flushed.stream with ahead := [], pushback := [], eof := false }
        host := flushed.host.setOffset flushed.stream.descriptor 0 }) := by
    simp only [request, Host.seek_file reached, if_pos (Nat.zero_le Content.maxSize)]
  have sought : seek 0 channel = _ := (Effect.bind_ok ran).trans ((Effect.bind_ok rfl).trans moved)
  have left := Host.setOffset_open? reached 0
  refine ⟨_, stored, Effect.bind_ok sought, ?_, ?_, bytes⟩
  · rw [stream]
    rfl
  · rwa [stream] at left ⊢

theorem rewind_refused
    (refused : (channel.host.write channel.stream.descriptor channel.stream.pending).1 = .error fault) :
    rewind channel = (.error fault, {
      stream := { channel.stream with pending := [], failed := true }
      host := (channel.host.write channel.stream.descriptor channel.stream.pending).2 }) :=
  Effect.bind_error (Effect.bind_error (flush_refused channel refused))

/-- A rewind through the descriptor of a file may move that, and to the start of the file where the host
takes the output. -/
theorem rewind_through
    (opened : channel.host.open? channel.stream.descriptor = some (descriptor, .file content)) :
    ∃ offset stored, (rewind channel).2.host.open? channel.stream.descriptor
        = some ({ descriptor with offset }, .file stored)
      ∧ ((channel.host.write channel.stream.descriptor channel.stream.pending).1 = .ok () →
        offset = 0) := by
  cases asked : (channel.host.write channel.stream.descriptor channel.stream.pending).1 with
  | ok _ =>
      obtain ⟨after, stored, ran, _, reached, _⟩ := rewind_taken channel opened asked
      rw [ran]
      exact ⟨0, stored, reached, fun _ => rfl⟩
  | error fault =>
      obtain ⟨stored, reached, _⟩ := Host.write_open? opened channel.stream.pending
      rw [rewind_refused channel asked]
      exact ⟨_, stored, reached, fun taken => by cases taken⟩

/-- A rewind through another descriptor leaves that of a file where it is. -/
theorem rewind_beside {id : DescriptorId}
    (opened : channel.host.open? id = some (descriptor, .file content))
    (apart : channel.stream.descriptor ≠ id) :
    ∃ stored, (rewind channel).2.host.open? id = some (descriptor, .file stored) := by
  obtain ⟨stored, written, _⟩ := Host.write_open?_ne opened (.inl apart)
  rw [← (Files.flush_channel channel).1] at written
  rcases (rewind_channel channel).1 with flushed | moved
  · rw [flushed]
    exact ⟨stored, written⟩
  · rw [moved]
    exact ⟨stored, Host.seek_open?_ne written apart 0⟩

end Transfer

namespace Files

open Effect (Upholds)

variable {files after : Files} {id other : FileId} {entry : Entry} {descriptor : Descriptor}
  {content : Content} {node : NodeId} {bytes : Bytes} {invariant : Files → Prop}

/-- The file of a handle is at its start, its flags are clear, and no output waits in it. -/
structure Rewound (files : Files) (id : FileId) : Prop where
  tell : (tell id files).1 = .ok 0
  eof : (isEof id files).1 = .ok false
  failed : (isFailed id files).1 = .ok false
  written : ∀ entry, files.table.find? id = some entry → entry.stream.pending = []

theorem isEof_found (found : files.table.find? id = some entry) :
    isEof id files = (.ok entry.stream.eof, files) :=
  Effect.bind_ok (entry_found found)

theorem isFailed_found (found : files.table.find? id = some entry) :
    isFailed id files = (.ok entry.stream.failed, files) :=
  Effect.bind_ok (entry_found found)

/-- No output of other files waits for a descriptor. -/
def Undivided (files : Files) (id : FileId) (descriptor : DescriptorId) : Prop :=
  ∀ other ∈ files.table.entries, other.id ≠ id →
    other.stream.descriptor = descriptor → other.stream.pending = []

/-- The file of `id` is as it was, but that its descriptor may have been moved, to one of `places`. -/
structure Held (files : Files) (id : FileId) (entry : Entry) (descriptor : Descriptor)
    (places : Nat → Prop) : Prop where
  found : files.table.find? id = some entry
  tidy : files.Tidy
  undivided : descriptor.appends = true → files.Undivided id entry.stream.descriptor
  opened : ∃ offset content, places offset
    ∧ files.host.open? entry.stream.descriptor = some ({ descriptor with offset }, .file content)

theorem rewind_missing (missing : files.table.find? id = none) :
    rewind id files = (.error (.notOpen id), files) :=
  Effect.bind_error (entry_missing missing)

theorem rewind_pending (other : FileId) :
    ∀ later ∈ (rewind other files).2.table.entries,
      later ∈ files.table.entries ∨ later.stream.pending = [] := by
  cases found : files.table.find? other with
  | none =>
      rw [rewind_missing found]
      exact fun later listed => .inl listed
  | some entry =>
      obtain ⟨_, _, nothing⟩ := Transfer.rewind_channel { stream := entry.stream, host := files.host }
      rw [rewind_run found, run_files]
      intro later listed
      obtain ⟨former, before, rfl⟩ := List.mem_map.mp listed
      split
      · exact .inr nothing
      · exact .inl before

theorem rewind_apart (other : FileId) (differs : other ≠ id) :
    (rewind other files).2.table.find? id = files.table.find? id := by
  cases found : files.table.find? other with
  | none =>
      rw [rewind_missing found]
  | some entry =>
      rw [rewind_run found, run_files, FileTable.id_of_find? found]
      exact FileTable.find?_setStream_ne (Ne.symm differs) _

theorem rewind_undivided {descriptor : DescriptorId} (undivided : files.Undivided id descriptor)
    (other : FileId) : (rewind other files).2.Undivided id descriptor := by
  intro later listed elsewhere shares
  rcases rewind_pending other later listed with before | nothing
  · exact undivided later before elsewhere shares
  · exact nothing

theorem rewind_tidy (tidy : files.Tidy) (other : FileId) : (rewind other files).2.Tidy :=
  have served : Effect.Always (Served other false) (rewind other) := rewind_served other
  (served files).path.tidy tidy

/-- The output of another file goes through the descriptor of a file that is held, and is taken where
that one has to stay at its start. -/
theorem Held.shared_taken (held : files.Held id entry descriptor (· = 0)) {another : Entry}
    (listed : another ∈ files.table.entries) (elsewhere : another.id ≠ id)
    (shares : another.stream.descriptor = entry.stream.descriptor) :
    (files.host.write another.stream.descriptor another.stream.pending).1 = .ok () := by
  obtain ⟨_, tidy, undivided, _, content, rfl, opened⟩ := held
  rw [shares, Host.write_ok_iff opened, Descriptor.writeStart]
  split
  · rename_i appends
    rw [undivided appends another listed elsewhere shares]
    exact Nat.zero_le _
  · have short := (tidy another listed).collected
    have large : Stream.bufferSize ≤ Content.maxSize - 0 := by decide
    exact Nat.le_trans (Nat.le_of_lt short) large

/-- Where a file is held at its start, the rewind of another one leaves it there. Elsewhere it may move
its descriptor. -/
theorem Held.rewind {places : Nat → Prop} (held : files.Held id entry descriptor places)
    (either : places = (· = 0) ∨ places = fun _ => True) (differs : other ≠ id) :
    (rewind other files).2.Held id entry descriptor places := by
  have ⟨found, tidy, undivided, offset, content, placed, opened⟩ := held
  refine ⟨(rewind_apart other differs).trans found, rewind_tidy tidy other,
    fun appends => rewind_undivided (undivided appends) other, ?_⟩
  cases present : files.table.find? other with
  | none =>
      rw [rewind_missing present]
      exact ⟨offset, content, placed, opened⟩
  | some another =>
      have elsewhere : another.id ≠ id := by rwa [FileTable.id_of_find? present]
      have listed := FileTable.mem_of_find? present
      rw [rewind_run present, run_files]
      by_cases shares : another.stream.descriptor = entry.stream.descriptor
      · rw [← shares] at opened ⊢
        obtain ⟨moved, stored, reached, back⟩ := Transfer.rewind_through
          { stream := another.stream, host := files.host } opened
        refine ⟨moved, stored, ?_, reached⟩
        rcases either with rfl | rfl
        · exact back (held.shared_taken listed elsewhere shares)
        · trivial
      · obtain ⟨stored, reached⟩ := Transfer.rewind_beside
          { stream := another.stream, host := files.host } opened shares
        exact ⟨offset, stored, placed, reached⟩

theorem rewind_stores (secluded : files.Secluded id node) (stores : files.host.Stores node bytes)
    (differs : other ≠ id) : (rewind other files).2.host.Stores node bytes := by
  cases present : files.table.find? other with
  | none =>
      rwa [rewind_missing present]
  | some another =>
      have elsewhere : another.id ≠ id := by rwa [FileTable.id_of_find? present]
      have written : (files.host.write another.stream.descriptor another.stream.pending).2.Stores
          node bytes := by
        rcases secluded.quiet another (FileTable.mem_of_find? present) elsewhere with nothing | away
        · rwa [nothing]
        · exact stores.sameAt (Host.write_sameAt files.host _ _ away)
      rw [← (flush_channel { stream := another.stream, host := files.host }).1] at written
      rw [rewind_run present, run_files]
      rcases (Transfer.rewind_channel { stream := another.stream, host := files.host }).1
        with flushed | moved
      · rwa [flushed]
      · rw [moved, Host.Stores, Host.seek_nodes]
        exact written

theorem rewind_forgiven {answer : Except FileError Unit} (ran : rewind id files = (answer, after)) :
    tryCatch (rewind id) (fun _ => return ()) files = (.ok (), after) := by
  cases answer with
  | ok _ => exact Effect.tryCatch_ok ran
  | error error => exact Effect.tryCatch_error ran

theorem rewindEach_upholds {ids : List FileId}
    (one : ∀ other ∈ ids, Upholds invariant (rewind other) fun _ => True) :
    Upholds invariant (rewindEach ids) fun _ => True := by
  induction ids with
  | nil => exact Upholds.pure trivial
  | cons other later ih =>
      have first := one other List.mem_cons_self
      have rests := ih fun another listed => one another (List.mem_cons_of_mem _ listed)
      unfold rewindEach
      dsimp only
      split
      · exact (Upholds.tryCatch first fun _ => Upholds.pure trivial).bind_any fun _ => rests
      · exact first.bind_any fun _ => rests

theorem rewindEach_from {later : List FileId} (own : invariant (rewind id files).2)
    (others : ∀ other ∈ later, Upholds invariant (rewind other) fun _ => True) :
    invariant (rewindEach (id :: later) files).2 := by
  have rests := rewindEach_upholds others
  rcases ran : rewind id files with ⟨answer, between⟩
  rw [ran] at own
  unfold rewindEach
  dsimp only
  split
  · rw [Effect.bind_ok (rewind_forgiven ran)]
    exact (rests between own).1
  · cases answer with
    | ok _ =>
        rw [Effect.bind_ok ran]
        exact (rests between own).1
    | error error =>
        rw [Effect.bind_error ran]
        exact own

def turnOf (id : FileId) (files : Files) : Except FileError Unit × Files :=
  rewindEach (files.table.ids.takeWhile (· != id)) files

theorem ids_around (distinct : files.table.ids.Nodup) (found : files.table.find? id = some entry) :
    ∃ later, files.table.ids = files.table.ids.takeWhile (· != id) ++ id :: later
      ∧ (∀ other ∈ files.table.ids.takeWhile (· != id), other ≠ id) ∧ ∀ other ∈ later, other ≠ id := by
  have listed : id ∈ files.table.ids := by
    rw [← FileTable.id_of_find? found]
    exact List.mem_map_of_mem (FileTable.mem_of_find? found)
  obtain ⟨earlier, later, ids⟩ := List.append_of_mem listed
  rw [ids, List.nodup_append, List.nodup_cons] at distinct
  obtain ⟨_, ⟨behind, _⟩, before⟩ := distinct
  have early : ∀ other ∈ earlier, other ≠ id :=
    fun other present => before other present id List.mem_cons_self
  have first : files.table.ids.takeWhile (· != id) = earlier := by
    rw [ids, List.takeWhile_append_of_pos fun other present => by simpa using early other present,
      List.takeWhile_cons_of_neg (by simp), List.append_nil]
  rw [first]
  refine ⟨later, ids, early, ?_⟩
  rintro other present rfl
  exact behind present

/-- A rewind of files that fails does so at one that is no standard stream. -/
theorem rewindEach_error {ids : List FileId} {error : FileError}
    (failed : (rewindEach ids files).1 = .error error) :
    ∃ first other rest, ids = first ++ other :: rest ∧ other.isStandard = false
      ∧ (rewind other (rewindEach first files).2).1 = .error error := by
  induction ids generalizing files with
  | nil => cases failed
  | cons other later ih =>
      -- A file that is passed comes before the one that fails.
      have passes (between : Files) (passed : rewindEach (other :: later) files = rewindEach later between)
          (one : rewindEach [other] files = (.ok (), between)) :
          ∃ first failing rest, other :: later = first ++ failing :: rest ∧ failing.isStandard = false
            ∧ (rewind failing (rewindEach first files).2).1 = .error error := by
        rw [passed] at failed
        obtain ⟨first, failing, rest, split, ordinary, refused⟩ := ih failed
        refine ⟨other :: first, failing, rest, congrArg (other :: ·) split, ordinary, ?_⟩
        have joined : (rewindEach [other] >>= fun _ => rewindEach first) files
            = rewindEach first between := Effect.bind_ok one
        rw [← rewindEach_append, List.singleton_append] at joined
        rwa [joined]
      rcases ran : rewind other files with ⟨answer, between⟩
      cases standard : other.isStandard with
      | true =>
          refine passes between ?_ ?_ <;>
          · simp only [rewindEach, standard, if_true]
            exact Effect.bind_ok (rewind_forgiven ran)
      | false =>
          cases answer with
          | ok _ =>
              refine passes between ?_ ?_ <;>
              · simp only [rewindEach, standard, Bool.false_eq_true, if_false]
                exact Effect.bind_ok ran
          | error refusal =>
              have stopped : rewindEach (other :: later) files = (.error refusal, between) := by
                simp only [rewindEach, standard, Bool.false_eq_true, if_false]
                exact Effect.bind_error ran
              rw [stopped] at failed
              exact ⟨[], other, later, rfl, standard, (congrArg Prod.fst ran).trans failed⟩

section Turn

variable (distinct : files.table.ids.Nodup) (found : files.table.find? id = some entry)

include distinct found

theorem rewindAll_stopped {error : FileError} (failed : (turnOf id files).1 = .error error) :
    rewindAll files = (.error error, (turnOf id files).2) := by
  obtain ⟨later, ids, _⟩ := ids_around distinct found
  have all : rewindAll files = rewindEach files.table.ids files := rfl
  rw [all, ids, rewindEach_append]
  exact Effect.bind_error (Effect.run_of_answer failed)

theorem rewindAll_reached (passed : (turnOf id files).1 = .ok ()) :
    ∃ later, (∀ other ∈ later, other ≠ id)
      ∧ rewindAll files = rewindEach (id :: later) (turnOf id files).2 := by
  obtain ⟨later, ids, _, late⟩ := ids_around distinct found
  have all : rewindAll files = rewindEach files.table.ids files := rfl
  refine ⟨later, late, ?_⟩
  rw [all, ids, rewindEach_append]
  exact Effect.bind_ok (Effect.run_of_answer passed)

variable (invariant) in
/-- What the rewinds of other files keep holds when the turn of a file comes or is missed. -/
theorem turnOf_keeps (begun : invariant files)
    (one : ∀ other, other ≠ id → Upholds invariant (rewind other) fun _ => True) :
    invariant (turnOf id files).2 := by
  obtain ⟨_, _, early, _⟩ := ids_around distinct found
  exact (rewindEach_upholds (fun other listed => one other (early other listed)) files begun).1

variable (invariant) in
/-- What the rewind of a file brings about, and those of others keep, holds in the end. -/
theorem rewindAll_keeps (passed : (turnOf id files).1 = .ok ())
    (own : invariant (rewind id (turnOf id files).2).2)
    (one : ∀ other, other ≠ id → Upholds invariant (rewind other) fun _ => True) :
    invariant (rewindAll files).2 := by
  obtain ⟨later, late, ran⟩ := rewindAll_reached distinct found passed
  rw [ran]
  exact rewindEach_from own fun other listed => one other (late other listed)

theorem turnOf_error {error : FileError} (failed : (turnOf id files).1 = .error error) :
    ∃ other ∈ files.table.ids.takeWhile (· != id), other.isStandard = false
      ∧ (rewind other (turnOf other files).2).1 = .error error := by
  obtain ⟨later, ids, _⟩ := ids_around distinct found
  obtain ⟨first, other, rest, split, ordinary, refused⟩ := rewindEach_error failed
  have before : files.table.ids.takeWhile (· != other) = first := by
    rw [ids, split, List.append_assoc, List.nodup_append] at distinct
    have early : ∀ another ∈ first, another ≠ other :=
      fun another present => distinct.2.2 another present other (by simp)
    rw [ids, split, List.append_assoc,
      List.takeWhile_append_of_pos fun another present => by simpa using early another present,
      List.cons_append, List.takeWhile_cons_of_neg (by simp), List.append_nil]
  refine ⟨other, ?_, ordinary, ?_⟩
  · rw [split]
    simp
  · rwa [turnOf, before]

end Turn

/-- A file whose output the host takes is rewound, and the host stores what it held with its output. -/
theorem Held.taken {places : Nat → Prop} (held : files.Held id entry descriptor places)
    (taken : (files.host.write entry.stream.descriptor entry.stream.pending).1 = .ok ()) :
    (Files.rewind id files).2.Held id { entry with stream := entry.stream.rewound } descriptor (· = 0)
      ∧ ∀ bytes, files.contentOf? id = some bytes →
        (Files.rewind id files).2.host.Stores descriptor.node bytes := by
  obtain ⟨found, tidy, undivided, offset, content, _, opened⟩ := held
  obtain ⟨after, stored, ran, stream, reached, held⟩ := Transfer.rewind_taken
    { stream := entry.stream, host := files.host } opened taken
  have left : (Files.rewind id files).2 = files.withChannel id after := by
    rw [rewind_run found, run_of_ok found ran]
  refine ⟨⟨?_, rewind_tidy tidy id, fun appends => rewind_undivided (undivided appends) id, 0, stored,
    rfl, ?_⟩, fun bytes holds => ?_⟩
  · rw [left, ← stream]
    exact FileTable.find?_setStream_self found after.stream
  · rw [left]
    exact reached
  · rw [contentOf?_file found opened] at holds
    rw [left]
    exact ⟨stored, (Host.open?_some reached).2, held.trans (Option.some.inj holds)⟩

theorem rewind_marks (found : files.table.find? id = some entry) {fault : Fault}
    (refused : (files.host.write entry.stream.descriptor entry.stream.pending).1 = .error fault) :
    (Files.rewind id files).2.table.find? id
      = some { entry with stream := { entry.stream with pending := [], failed := true } } := by
  have ran := Transfer.rewind_refused { stream := entry.stream, host := files.host } refused
  obtain rfl := FileTable.id_of_find? found
  rw [rewind_run found, run_files, ran]
  exact FileTable.find?_setStream_self found _

theorem Held.rewound
    (held : files.Held id { entry with stream := entry.stream.rewound } descriptor (· = 0)) :
    files.Rewound id := by
  obtain ⟨found, _, _, _, content, rfl, opened⟩ := held
  refine ⟨?_, congrArg Prod.fst (isEof_found found), congrArg Prod.fst (isFailed_found found), ?_⟩
  · rw [tell_file found opened]
    rfl
  · intro entry present
    rw [found] at present
    cases present
    rfl

theorem held_upholds {places : Nat → Prop}
    (either : places = (· = 0) ∨ places = fun _ => True) (differs : other ≠ id) :
    Upholds (fun files => files.Held id entry descriptor places) (rewind other) fun _ => True :=
  fun _ held => ⟨held.rewind either differs, fun _ _ => trivial⟩

section Outcomes

variable (distinct : files.table.ids.Nodup) (held : files.Held id entry descriptor fun _ => True)

include distinct held

theorem Held.turn : (turnOf id files).2.Held id entry descriptor fun _ => True :=
  turnOf_keeps _ distinct held.found held fun _ => held_upholds (.inr rfl)

variable (passed : (turnOf id files).1 = .ok ())

include passed

theorem Held.rewindAll_rewound
    (taken : ((turnOf id files).2.host.write entry.stream.descriptor entry.stream.pending).1 = .ok ()) :
    (rewindAll files).2.Rewound id := by
  have own := ((held.turn distinct).taken taken).1
  have kept := rewindAll_keeps
    (fun files => files.Held id { entry with stream := entry.stream.rewound } descriptor (· = 0))
    distinct held.found passed own fun _ => held_upholds (.inl rfl)
  exact kept.rewound

/-- The mark of a file whose output was refused stays to the end. -/
theorem Held.rewindAll_marked {fault : Fault}
    (refused : ((turnOf id files).2.host.write entry.stream.descriptor entry.stream.pending).1
      = .error fault) :
    ¬ (rewindAll files).2.Rewound id := by
  have marked := rewindAll_keeps
    (fun files => files.table.find? id
      = some { entry with stream := { entry.stream with pending := [], failed := true } })
    distinct held.found passed (rewind_marks (held.turn distinct).found refused)
    fun _ differs _ same => ⟨(rewind_apart _ differs).trans same, fun _ _ => trivial⟩
  intro rewound
  have clear := rewound.failed
  rw [isFailed_found marked] at clear
  cases clear

/-- What a file held with its output when its turn came is stored in the end. -/
theorem Held.rewindAll_stores
    (taken : ((turnOf id files).2.host.write entry.stream.descriptor entry.stream.pending).1 = .ok ())
    (secluded : files.Secluded id descriptor.node)
    (holds : (turnOf id files).2.contentOf? id = some bytes) :
    (rewindAll files).2.host.Stores descriptor.node bytes := by
  have still : (turnOf id files).2.Secluded id descriptor.node :=
    turnOf_keeps (fun files => files.Secluded id descriptor.node) distinct held.found
      secluded fun other _ _ secluded => ⟨rewind_secluded secluded other, fun _ _ => trivial⟩
  have own := ((held.turn distinct).taken taken).2 bytes holds
  have stored := rewindAll_keeps
    (fun files => files.Secluded id descriptor.node ∧ files.host.Stores descriptor.node bytes)
    distinct held.found passed ⟨rewind_secluded still id, own⟩
    fun other differs _ ⟨secluded, stores⟩ =>
      ⟨⟨rewind_secluded secluded other, rewind_stores secluded stores differs⟩, fun _ _ => trivial⟩
  exact stored.2

end Outcomes

/-- A file whose turn comes is rewound just where the host takes its output. Otherwise it is at its
start just where it was so before. -/
theorem Held.rewindAll_iff (distinct : files.table.ids.Nodup)
    (held : files.Held id entry descriptor fun _ => True) :
    (rewindAll files).2.Rewound id
      ↔ (turnOf id files).1 = .ok ()
          ∧ ((turnOf id files).2.host.write entry.stream.descriptor entry.stream.pending).1 = .ok ()
        ∨ (turnOf id files).1 ≠ .ok () ∧ (turnOf id files).2.Rewound id := by
  cases answered : (turnOf id files).1 with
  | error error =>
      rw [rewindAll_stopped distinct held.found answered]
      constructor
      · exact fun rewound => .inr ⟨(by intro passed; cases passed), rewound⟩
      · rintro (⟨passed, _⟩ | ⟨_, rewound⟩)
        · cases passed
        · exact rewound
  | ok _ =>
      cases asked : ((turnOf id files).2.host.write entry.stream.descriptor entry.stream.pending).1 with
      | ok _ => exact ⟨fun _ => .inl ⟨rfl, rfl⟩, fun _ => held.rewindAll_rewound distinct answered asked⟩
      | error fault =>
          constructor
          · exact fun rewound => absurd rewound (held.rewindAll_marked distinct answered asked)
          · rintro (⟨_, goes⟩ | ⟨missed, _⟩)
            · cases goes
            · exact absurd rfl missed

end Files

/-- In every state of every run a rewind of all files rewinds a regular file just where its turn comes
and the host takes its output, and then stores all of it. The turn does not come where an earlier file
that is no standard stream fails; then the file is left as it was. -/
theorem rewound_up_to_a_failure (host : Host) (maxFiles readChunk : Nat) (adopt : Bool)
    (calls : List FileCall) {id : FileId} {entry : Entry} {descriptor : Descriptor}
    {content : Content} :
    let files := FileCall.afterAll calls (Files.new host maxFiles readChunk adopt)
    files.table.find? id = some entry →
    files.host.open? entry.stream.descriptor = some (descriptor, .file content) →
    (descriptor.appends = true → files.Undivided id entry.stream.descriptor) →
    let turn := Files.turnOf id files
    let after := FileCall.rewindAll.after files
    let taken := (turn.2.host.write entry.stream.descriptor entry.stream.pending).1 = .ok ()
    (after.Rewound id ↔ turn.1 = .ok () ∧ taken ∨ turn.1 ≠ .ok () ∧ turn.2.Rewound id)
      ∧ (turn.1 = .ok () → taken → files.Quiet id descriptor.node →
        ∀ bytes, turn.2.contentOf? id = some bytes → after.host.Stores descriptor.node bytes)
      ∧ ∀ error, turn.1 = .error error →
        FileCall.rewindAll.perform files = (.error error, turn.2)
          ∧ after.table.find? id = some entry
          ∧ ∃ other ∈ files.table.ids.takeWhile (· != id), other.isStandard = false
            ∧ (Files.rewind other (Files.turnOf other files).2).1 = .error error := by
  intro files found opened undivided turn after taken
  obtain ⟨kept, _⟩ := FileCall.afterAll_counted calls (Files.new_counted host maxFiles readChunk adopt).1
  have distinct : files.table.ids.Nodup := kept.distinct
  have left : after = (Files.rewindAll files).2 := FileCall.bind_pure_state Files.rewindAll none files
  have held : files.Held id entry descriptor fun _ => True :=
    ⟨found, Files.tidy_over_runs host maxFiles readChunk adopt calls, undivided, descriptor.offset,
      content, trivial, opened⟩
  rw [left]
  refine ⟨held.rewindAll_iff distinct, fun passed goes quiet bytes holds => ?_, fun error failed => ?_⟩
  · have node (other : Entry) (present : files.table.find? id = some other) :
        files.host.node? other.stream.descriptor = some descriptor.node := by
      rw [found] at present
      cases present
      exact Host.node?_of_open? opened
    exact held.rewindAll_stores distinct passed goes ⟨node, quiet⟩ holds
  · have stopped := Files.rewindAll_stopped distinct found failed
    refine ⟨Effect.bind_error stopped, ?_, Files.turnOf_error distinct found failed⟩
    rw [stopped]
    exact (held.turn distinct).found

namespace RewoundSample

def host : Host :=
  OneFile.host.inheritPipe 5 { reads := true, writes := false } [0x70]

def calls : List FileCall :=
  [.openFile "a" "r+", .ask (.write ⟨3⟩ [0x78, 0x79]), .adoptInherited]

def before : Files := FileCall.afterAll calls (Files.new host 20 1024 false)

def writtenEntry : Entry where
  id := ⟨3⟩
  name := "a"
  mode := { base := .read, binary := false, update := true }
  node := some 10
  stream := { Stream.new 4 true with pending := [0x78, 0x79], direction := .write }

/-- The pipe fails when the file is rewound already. -/
theorem file_before_pipe_is_rewound :
    (FileCall.rewindAll.perform before).1 = .error (.host .illegalSeek)
      ∧ (FileCall.rewindAll.after before).Rewound ⟨3⟩
      ∧ (FileCall.rewindAll.after before).host.Stores 10 [0x78, 0x79, 0x63, 0x64, 0x65] := by
  have found : before.table.find? ⟨3⟩ = some writtenEntry := by cbv
  have opened : before.host.open? writtenEntry.stream.descriptor
      = some ({ node := 10, offset := 0, appends := false },
          .file (Content.ofBytes [0x61, 0x62, 0x63, 0x64, 0x65])) := by cbv
  have idle : before.table.entries.all
      (fun other => other.id == ⟨3⟩ || other.stream.pending.isEmpty) = true := by cbv
  have nothing (other : Entry) (listed : other ∈ before.table.entries) (differs : other.id ≠ ⟨3⟩) :
      other.stream.pending = [] := by
    have one := List.all_eq_true.mp idle other listed
    simpa [differs] using one
  have turn : (Files.turnOf ⟨3⟩ before).1 = .ok () := by cbv
  have taken : ((Files.turnOf ⟨3⟩ before).2.host.write writtenEntry.stream.descriptor
      writtenEntry.stream.pending).1 = .ok () := by cbv
  have content : (Files.turnOf ⟨3⟩ before).2.contentOf? ⟨3⟩ = some [0x78, 0x79, 0x63, 0x64, 0x65] := by
    cbv
  obtain ⟨rewound, stores, _⟩ := rewound_up_to_a_failure host 20 1024 false calls found opened
    fun _ other listed differs _ => nothing other listed differs
  refine ⟨by cbv, rewound.mpr (.inl ⟨turn, taken⟩), stores turn taken ?_ _ content⟩
  exact fun other listed differs => .inl (nothing other listed differs)

def behind : Files :=
  FileCall.afterAll [.openFile "a" "r", .ask (.readChar ⟨4⟩)] (Files.new host 20 1024 true)

def entry : Entry where
  id := ⟨4⟩
  name := "a"
  mode := { base := .read, binary := false, update := false }
  node := some 10
  stream := { Stream.new 4 true with ahead := [0x62, 0x63, 0x64, 0x65], direction := .read }

/-- The pipe cannot be rewound, and the file behind it stays where it was. -/
theorem adopted_pipe_stops_rewind :
    behind.table.find? ⟨4⟩ = some entry
      ∧ behind.host.open? entry.stream.descriptor
        = some ({ node := 10, offset := 5, appends := false },
            .file (Content.ofBytes [0x61, 0x62, 0x63, 0x64, 0x65]))
      ∧ (FileCall.rewindAll.perform behind).1 = .error (.host .illegalSeek)
      ∧ (Files.tell ⟨4⟩ (FileCall.rewindAll.after behind)).1 = .ok 1 := by
  refine ⟨?_, ?_, ?_, ?_⟩ <;> cbv

end RewoundSample

end Calculator
