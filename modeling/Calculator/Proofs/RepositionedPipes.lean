import Calculator.Proofs.Bystanders
import Calculator.Proofs.OpenFile
import Calculator.Proofs.PipeInput

/-!
# Moving on a pipe

There is no moving on a pipe: each request to do so is refused, or skipped on a standard stream. The
request clears the buffers of the stream before the host refuses it, and so a refused move loses what
was fetched and pushed back, unless something refused it before it came to the stream.
-/

namespace Calculator

namespace Host

variable {host : Host} {id other : DescriptorId} {descriptor : Descriptor} {queued : Bytes}

theorem seek_pipe (opened : host.open? id = some (descriptor, .pipe queued)) (target : Nat) :
    host.seek id target = (.error .illegalSeek, host) := by
  rw [seek, opened]

theorem tell_pipe (opened : host.open? id = some (descriptor, .pipe queued)) :
    host.tell id = .error .illegalSeek := by
  rw [tell, opened]

theorem size_pipe (opened : host.open? id = some (descriptor, .pipe queued)) : host.size id = .ok 0 := by
  rw [size, opened]

theorem setOffset_pipe (opened : host.open? id = some (descriptor, .pipe queued)) (target : Nat) :
    ∃ moved, (host.setOffset other target).open? id = some (moved, .pipe queued) := by
  by_cases same : other = id
  · rw [same]
    exact ⟨_, setOffset_open? opened target⟩
  · exact ⟨_, setOffset_open?_ne opened same target⟩

theorem seek_spares (opened : host.open? id = some (descriptor, .pipe queued)) (target : Nat) :
    ∃ moved, (host.seek other target).2.open? id = some (moved, .pipe queued) := by
  have still : ∃ moved, host.open? id = some (moved, .pipe queued) := ⟨descriptor, opened⟩
  unfold seek
  split
  · exact still
  · split
    · exact setOffset_pipe opened target
    · exact still
  · exact setOffset_pipe opened target
  · exact still
  · exact still
  · exact still

theorem write_spares (opened : host.open? id = some (descriptor, .pipe queued)) {bytes : Bytes}
    (apart : bytes = [] ∨ host.node? other ≠ some descriptor.node) :
    (host.write other bytes).2.open? id = some (descriptor, .pipe queued) := by
  rcases apart with rfl | apart
  · exact opened
  · have same := write_sameAt host other bytes apart
    obtain ⟨held, stored⟩ := open?_some opened
    exact open?_of ((same.descriptor id (node?_of_open? opened)).trans held) (same.stored.trans stored)

end Host

namespace Transfer

variable {channel : Channel} {held rest : Bytes}

theorem seek_loses (offers : channel.Offers held rest) (target : Nat) :
    ∃ after, seek target channel = (.error .illegalSeek, after) ∧ after.Offers [] rest := by
  obtain ⟨flushed, ran, still, _⟩ := flush_offers offers
  obtain ⟨tidy, _, descriptor, queued, opened, whole⟩ := still
  have refused : request (fun host descriptor => host.seek descriptor target)
      { flushed with stream := { flushed.stream with ahead := [], pushback := [], eof := false } }
        = (.error .illegalSeek, { flushed with stream :=
            { flushed.stream with ahead := [], pushback := [], eof := false, failed := true } }) := by
    simp only [request, Host.seek_pipe opened]
  refine ⟨_, (Effect.bind_ok ran).trans ((Effect.bind_ok rfl).trans refused), ?_⟩
  exact ⟨tidy.emptied.marked false true, rfl, descriptor, queued, opened, whole⟩

theorem reposition_loses (offers : channel.Offers held rest) (target : Nat) :
    ∃ after, reposition target channel = (.error .illegalSeek, after) ∧ after.Offers [] rest := by
  obtain ⟨after, ran, left⟩ := seek_loses offers target
  exact ⟨after, Effect.bind_error ran, left⟩

theorem rewind_loses (offers : channel.Offers held rest) :
    ∃ after, rewind channel = (.error .illegalSeek, after) ∧ after.Offers [] rest := by
  obtain ⟨after, ran, left⟩ := seek_loses offers 0
  exact ⟨after, Effect.bind_error ran, left⟩

/-- All that a rewind does to the host is to flush and to move. -/
theorem rewind_channel (channel : Channel) :
    ((rewind channel).2.host = (flush channel).2.host
        ∨ (rewind channel).2.host = ((flush channel).2.host.seek channel.stream.descriptor 0).2)
      ∧ (rewind channel).2.stream.descriptor = channel.stream.descriptor
      ∧ (rewind channel).2.stream.pending = [] := by
  obtain ⟨_, descriptor, nothing⟩ := Files.flush_channel channel
  unfold rewind
  rcases ran : flush channel with ⟨answer, flushed⟩
  rw [ran] at descriptor nothing
  cases answer with
  | error fault =>
      have stopped : seek 0 channel = (.error fault, flushed) := Effect.bind_error ran
      rw [Effect.bind_error stopped]
      exact ⟨.inl rfl, descriptor, nothing⟩
  | ok _ =>
      obtain ⟨failed, asked⟩ := request_eq (fun host descriptor => host.seek descriptor 0)
        { flushed with stream := { flushed.stream with ahead := [], pushback := [], eof := false } }
      have sought : seek 0 channel
          = ((flushed.host.seek flushed.stream.descriptor 0).1,
            { stream := { flushed.stream with ahead := [], pushback := [], eof := false, failed }
              host := (flushed.host.seek flushed.stream.descriptor 0).2 }) :=
        (Effect.bind_ok ran).trans asked
      rw [← descriptor]
      cases moved : (flushed.host.seek flushed.stream.descriptor 0).1 with
      | error fault =>
          simp only [moved] at sought
          rw [Effect.bind_error sought]
          exact ⟨.inr rfl, rfl, nothing⟩
      | ok _ =>
          simp only [moved] at sought
          rw [Effect.bind_ok sought]
          exact ⟨.inr rfl, rfl, nothing⟩

theorem position_refused (offers : channel.Offers held rest) :
    position channel = (.error .illegalSeek, channel) := by
  obtain ⟨descriptor, queued, opened, _⟩ := offers.piped
  rw [position, Host.tell_pipe opened]

theorem size_offers (offers : channel.Offers held rest) :
    ∃ after, size channel = (.ok 0, after) ∧ after.Offers held rest := by
  obtain ⟨flushed, ran, still, _⟩ := flush_offers offers
  obtain ⟨descriptor, queued, opened, _⟩ := still.piped
  refine ⟨flushed, (Effect.bind_ok ran).trans ?_, still⟩
  rw [Host.size_pipe opened]

end Transfer

namespace Files

variable {files : Files} {id other : FileId} {entry : Entry} {held rest : Bytes} {chunk : Nat}
  {α β : Type}

/-- The program fails. It leaves the pipe of `id` with what it held unless it `reached` its stream. -/
def Refuses (program : FileM α) (files : Files) (id : FileId) (chunk : Nat) (held rest : Bytes)
    (reached : Prop) : Prop :=
  ∃ error after, program files = (.error error, after)
    ∧ (reached → after.Offers id chunk [] rest) ∧ (¬ reached → after.Offers id chunk held rest)

theorem Refuses.early {program : FileM α} {error : FileError} {reached : Prop}
    (offers : files.Offers id chunk held rest) (ran : program files = (.error error, files))
    (early : ¬ reached) : Refuses program files id chunk held rest reached :=
  ⟨error, files, ran, fun late => absurd late early, fun _ => offers⟩

theorem Refuses.late {program : FileM α} {error : FileError} {after : Files} {reached : Prop}
    (ran : program files = (.error error, after)) (left : after.Offers id chunk [] rest)
    (late : reached) : Refuses program files id chunk held rest reached :=
  ⟨error, after, ran, fun _ => left, fun early => absurd late early⟩

theorem Refuses.congr {program : FileM α} {reached other : Prop}
    (refuses : Refuses program files id chunk held rest reached) (same : reached ↔ other) :
    Refuses program files id chunk held rest other := by
  obtain ⟨error, after, ran, late, early⟩ := refuses
  exact ⟨error, after, ran, fun holds => late (same.mpr holds), fun fails => early (mt same.mp fails)⟩

theorem Refuses.after {program : FileM α} {next : α → FileM β} {result : α} {between : Files}
    {reached : Prop} (ran : program files = (.ok result, between))
    (refuses : Refuses (next result) between id chunk held rest reached) :
    Refuses (program >>= next) files id chunk held rest reached := by
  obtain ⟨error, after, failed, left⟩ := refuses
  exact ⟨error, after, (Effect.bind_ok ran).trans failed, left⟩

variable (offers : files.Offers id chunk held rest)

include offers

theorem reposition_refuses (target : Nat) :
    ∃ error after, (Files.entry id >>= fun entry => run entry (Transfer.reposition target)) files
      = (.error error, after) ∧ after.Offers id chunk [] rest := by
  obtain ⟨entry, found, reading, offered⟩ := offers.opened
  obtain ⟨channel, ran, left⟩ := Transfer.reposition_loses offered target
  obtain ⟨after, reached, leaves⟩ := offers.run found ran left
  exact ⟨_, after, (Effect.bind_ok (entry_found found)).trans reached, leaves⟩

theorem rewind_refuses :
    ∃ error after, rewind id files = (.error error, after) ∧ after.Offers id chunk [] rest := by
  obtain ⟨entry, found, reading, offered⟩ := offers.opened
  obtain ⟨channel, ran, left⟩ := Transfer.rewind_loses offered
  obtain ⟨after, reached, leaves⟩ := offers.run found ran left
  exact ⟨_, after, (Effect.bind_ok (entry_found found)).trans reached, leaves⟩

/-- Going to a position that is counted from `start` and in range. -/
theorem target_refuses (position : Int) (fits : Number.fitsWord position = true) :
    Refuses (do
        let target ← Position.toAbsolute position
        run (← Files.entry id) (Transfer.reposition target) : FileM Unit)
      files id chunk held rest (0 ≤ position) := by
  have checked := Position.toAbsolute_eq position
  rw [if_pos fits] at checked
  by_cases negative : position < 0
  · rw [if_pos negative] at checked
    rw [checked]
    exact Refuses.early offers rfl (Int.not_le.mpr negative)
  · rw [if_neg negative] at checked
    obtain ⟨error, after, ran, left⟩ := reposition_refuses offers position.toNat
    rw [checked]
    exact Refuses.late ran left (Int.not_lt.mp negative)

theorem setPosition_refuses (position : Int) :
    Refuses (setPosition id position) files id chunk held rest
      (id.isStandard = false ∧ Number.fitsWord position = true ∧ 0 ≤ position) := by
  unfold setPosition
  cases standard : id.isStandard with
  | true => exact Refuses.early offers rfl (by simp)
  | false =>
      by_cases fits : Number.fitsWord position = true
      · exact (target_refuses offers position fits).congr (by simp [fits])
      · have refused : Position.toAbsolute position = .error .positionOutOfRange := by
          rw [Position.toAbsolute_eq, if_neg fits]
        rw [refused]
        exact Refuses.early offers rfl (by simp [fits])

/-- A move from the start of a pipe, or from its end, which counts as its start. -/
theorem seek_start_refuses {offset : Int} (fits : Number.fitsWord offset = true) :
    Refuses (do
        if !Number.fitsWord (0 : Nat) then throw .positionOutOfRange
        let target ← Position.toAbsolute ((0 : Nat) + offset)
        run (← Files.entry id) (Transfer.reposition target) : FileM Unit)
      files id chunk held rest (0 ≤ offset) := by
  have moved := target_refuses offers (0 + offset)
  rw [Int.zero_add] at moved
  have counted : ((0 : Nat) : Int) + offset = offset := Int.zero_add offset
  rw [counted]
  exact moved fits

theorem seek_refuses (offset whence : Int) :
    Refuses (seek id offset whence) files id chunk held rest
      ((whence = 0 ∨ whence = 2) ∧ Number.fitsWord offset = true ∧ 0 ≤ offset) := by
  unfold seek
  by_cases fits : Number.fitsWord offset = true
  · have counted : Position.toOffset offset = .ok offset := if_pos fits
    rw [counted]
    obtain ⟨entry, found, reading, offered⟩ := offers.opened
    have looked := entry_found found
    refine Refuses.after rfl ?_
    by_cases start : whence = 0
    · subst start
      refine Refuses.after (Effect.bind_ok looked) ?_
      exact (seek_start_refuses offers fits).congr (by simp [fits])
    by_cases finish : whence = 2
    · subst finish
      obtain ⟨channel, ran, left⟩ := Transfer.size_offers offered
      obtain ⟨between, sized, still⟩ := offers.run found ran left
      refine Refuses.after ((Effect.bind_ok looked).trans sized) ?_
      exact (seek_start_refuses still fits).congr (by simp [fits])
    have early : ¬ ((whence = 0 ∨ whence = 2) ∧ Number.fitsWord offset = true ∧ 0 ≤ offset) :=
      fun reached => reached.1.elim start finish
    by_cases here : whence = 1
    · subst here
      obtain ⟨after, refused, still⟩ := offers.run found (Transfer.position_refused offered) offered
      refine ⟨_, after, Effect.bind_error ((Effect.bind_ok looked).trans refused),
        fun late => absurd late early, fun _ => still⟩
    · refine ⟨.badWhence whence, files, Effect.bind_error ?_, fun late => absurd late early,
        fun _ => offers⟩
      rw [Effect.bind_ok looked]
      split
      · exact absurd rfl start
      · exact absurd rfl here
      · exact absurd rfl finish
      · rfl
  · have counted : Position.toOffset offset = .error .positionOutOfRange := if_neg fits
    rw [counted]
    exact Refuses.early offers rfl fun reached => fits reached.2.1

end Files

namespace Files

open Effect (Upholds)

variable {files : Files} {id other : FileId} {entry : Entry} {node : NodeId} {held rest : Bytes}
  {chunk : Nat}

/-- No output waits for `node` in the files of other handles than `id`. -/
def Quiet (files : Files) (id : FileId) (node : NodeId) : Prop :=
  ∀ other ∈ files.table.entries, other.id ≠ id →
    other.stream.pending = [] ∨ files.host.node? other.stream.descriptor ≠ some node

/-- The file of `id` is open on `node`, and no output of others waits for it. -/
structure Secluded (files : Files) (id : FileId) (node : NodeId) : Prop where
  home : ∀ entry, files.table.find? id = some entry →
    files.host.node? entry.stream.descriptor = some node
  quiet : files.Quiet id node

theorem rewind_run (found : files.table.find? id = some entry) :
    rewind id files = run entry Transfer.rewind files :=
  Effect.bind_ok (entry_found found)

theorem rewind_secluded (secluded : files.Secluded id node) (other : FileId) :
    (rewind other files).2.Secluded id node := by
  cases found : files.table.find? other with
  | none =>
      have missed : rewind other files = (.error (.notOpen other), files) :=
        Effect.bind_error (entry_missing found)
      rwa [missed]
  | some entry =>
      obtain ⟨_, descriptor, nothing⟩ :=
        Transfer.rewind_channel { stream := entry.stream, host := files.host }
      have nodes := Transfer.framed_node? Transfer.rewind_framed
        { stream := entry.stream, host := files.host }
      have own := FileTable.id_of_find? found
      rw [rewind_run found, run_files, own]
      generalize (Transfer.rewind { stream := entry.stream, host := files.host }).2 = channel at *
      constructor
      case home =>
        intro later listed
        rw [nodes]
        by_cases same : id = other
        · subst same
          rw [FileTable.find?_setStream_self found] at listed
          cases listed
          dsimp only
          rw [descriptor]
          exact secluded.home entry found
        · rw [FileTable.find?_setStream_ne same] at listed
          exact secluded.home later listed
      case quiet =>
        intro later listed differs
        obtain ⟨former, before, rfl⟩ := List.mem_map.mp listed
        rw [nodes]
        split
        · exact .inl nothing
        · rename_i unchanged
          rw [if_neg unchanged] at differs
          exact secluded.quiet former before differs

theorem rewind_aside (secluded : files.Secluded id node) (offers : files.Offers id chunk held rest)
    (differs : other ≠ id) : (rewind other files).2.Offers id chunk held rest := by
  cases found : files.table.find? other with
  | none =>
      have missed : rewind other files = (.error (.notOpen other), files) :=
        Effect.bind_error (entry_missing found)
      rwa [missed]
  | some entry =>
      obtain ⟨own, present, reading, tidy, whole, descriptor, queued, opened, behind⟩ := offers.opened
      have handle := FileTable.id_of_find? found
      have home : descriptor.node = node :=
        Option.some.inj ((Host.node?_of_open? opened).symm.trans (secluded.home own present))
      have apart := secluded.quiet entry (FileTable.mem_of_find? found) (handle ▸ differs)
      rw [← home] at apart
      have written := Host.write_spares opened apart
      rw [← (flush_channel { stream := entry.stream, host := files.host }).1] at written
      obtain ⟨moves, _⟩ := Transfer.rewind_channel { stream := entry.stream, host := files.host }
      have reached : ∃ moved, (Transfer.rewind { stream := entry.stream, host := files.host }).2.host.open?
          own.stream.descriptor = some (moved, .pipe queued) := by
        rcases moves with flushed | moved
        · rw [flushed]
          exact ⟨descriptor, written⟩
        · rw [moved]
          exact Host.seek_spares written 0
      obtain ⟨moved, reached⟩ := reached
      rw [rewind_run found, run_files, handle]
      exact ⟨offers.chunk, own, (FileTable.find?_setStream_ne (Ne.symm differs) _).trans present, reading,
        tidy, whole, moved, queued, reached, behind⟩

theorem rewindEach_append (first second : List FileId) :
    rewindEach (first ++ second) = (rewindEach first >>= fun _ => rewindEach second) := by
  induction first with
  | nil => rfl
  | cons id rest ih =>
      rw [List.cons_append, rewindEach, rewindEach, ih]
      cases id.isStandard <;> exact (bind_assoc _ _ _).symm

theorem rewindEach_spares (ids : List FileId) (others : ∀ other ∈ ids, other ≠ id) :
    Upholds (fun files => files.Offers id chunk held rest ∧ files.Secluded id node) (rewindEach ids)
      fun _ => True := by
  have one {other : FileId} (differs : other ≠ id) :
      Upholds (fun files => files.Offers id chunk held rest ∧ files.Secluded id node) (rewind other)
        fun _ => True := by
    rintro files ⟨offers, secluded⟩
    exact ⟨⟨rewind_aside secluded offers differs, rewind_secluded secluded other⟩, fun _ _ => trivial⟩
  induction ids with
  | nil => exact Upholds.pure trivial
  | cons other later ih =>
      have rests := ih fun another listed => others another (List.mem_cons_of_mem _ listed)
      have first := one (others other List.mem_cons_self)
      unfold rewindEach
      dsimp only
      split
      · exact (Upholds.tryCatch first fun _ => Upholds.pure trivial).bind_any fun _ => rests
      · exact first.bind_any fun _ => rests

/-- From the turn of a pipe on, its input is lost, whether its rewind is skipped or fails. -/
theorem rewindEach_loses (secluded : files.Secluded id node) (offers : files.Offers id chunk held rest)
    (later : List FileId) (others : ∀ other ∈ later, other ≠ id) :
    (rewindEach (id :: later) files).2.Offers id chunk [] rest := by
  obtain ⟨error, after, ran, left⟩ := rewind_refuses offers
  have still : after.Secluded id node := by
    have kept := rewind_secluded secluded id
    rwa [ran] at kept
  unfold rewindEach
  dsimp only
  split
  · have caught : tryCatch (rewind id) (fun _ => return ()) files = (.ok (), after) :=
      Effect.tryCatch_error ran
    rw [Effect.bind_ok caught]
    exact (rewindEach_spares later others after ⟨left, still⟩).1.1
  · rw [Effect.bind_error ran]
    exact left

/-- A rewind of all files comes to a pipe unless an earlier one that is no standard stream fails. -/
theorem rewindAll_offers (distinct : files.table.ids.Nodup) (secluded : files.Secluded id node)
    (offers : files.Offers id chunk held rest) :
    let reached := (rewindEach (files.table.ids.takeWhile (· != id)) files).1 = .ok ()
    (reached → (rewindAll files).2.Offers id chunk [] rest)
      ∧ (¬ reached → (rewindAll files).2.Offers id chunk held rest) := by
  obtain ⟨entry, found, _⟩ := offers.opened
  have listed : id ∈ files.table.ids := by
    rw [← FileTable.id_of_find? found]
    exact List.mem_map_of_mem (FileTable.mem_of_find? found)
  have ran : rewindAll files = rewindEach files.table.ids files := rfl
  rw [ran]
  obtain ⟨earlier, later, ids⟩ := List.append_of_mem listed
  rw [ids, List.nodup_append, List.nodup_cons] at distinct
  obtain ⟨_, ⟨behind, _⟩, before⟩ := distinct
  have early : ∀ other ∈ earlier, other ≠ id :=
    fun other present => before other present id List.mem_cons_self
  have late : ∀ other ∈ later, other ≠ id := by
    rintro other present rfl
    exact behind present
  have first : files.table.ids.takeWhile (· != id) = earlier := by
    rw [ids, List.takeWhile_append_of_pos fun other present => by simpa using early other present,
      List.takeWhile_cons_of_neg (by simp), List.append_nil]
  obtain ⟨still, kept⟩ := (rewindEach_spares earlier early files ⟨offers, secluded⟩).1
  rw [first, ids, rewindEach_append]
  rcases passed : rewindEach earlier files with ⟨answer, between⟩
  rw [passed] at still kept
  cases answer with
  | ok _ =>
      rw [Effect.bind_ok passed]
      exact ⟨fun _ => rewindEach_loses kept still later late, fun missed => absurd rfl missed⟩
  | error error =>
      rw [Effect.bind_error passed]
      refine ⟨fun passed => ?_, fun _ => still⟩
      cases passed

end Files

/-- A call that moves the file of a handle. -/
inductive Move where
  | seek (offset whence : Int)
  | setPosition (position : Int)
  | rewind
  | rewindAll
  deriving DecidableEq, Repr

namespace Move

def call (id : FileId) : Move → FileCall
  | seek offset whence => .ask (.seek id offset whence)
  | setPosition position => .ask (.setPosition id position)
  | rewind => .ask (.rewind id)
  | rewindAll => .rewindAll

/-- The move comes to the stream of a pipe. A move from the place where it stands does not, since a pipe
has no such place, nor does one to a place that is out of range. -/
def Reaches (id : FileId) (files : Files) : Move → Prop
  | seek offset whence => (whence = 0 ∨ whence = 2) ∧ Number.fitsWord offset = true ∧ 0 ≤ offset
  | setPosition position =>
      id.isStandard = false ∧ Number.fitsWord position = true ∧ 0 ≤ position
  | rewind => True
  | rewindAll => (Files.rewindEach (files.table.ids.takeWhile (· != id)) files).1 = .ok ()

variable {files : Files} {id : FileId} {held rest : Bytes} {chunk : Nat}

/-- A request that moves one file, as the program that it stands for. -/
theorem request_refuses {program : FileM Unit} {request : FileRequest} {reached : Prop}
    (performs : request.perform = program >>= fun _ => pure .done)
    (refuses : Files.Refuses program files id chunk held rest reached) :
    Files.Refuses (FileCall.ask request).perform files id chunk held rest reached := by
  obtain ⟨error, after, ran, left⟩ := refuses
  have failed : request.perform files = (.error error, after) := by
    rw [performs]
    exact Effect.bind_error ran
  exact ⟨error, after, Effect.bind_error failed, left⟩

theorem refuses (offers : files.Offers id chunk held rest) {move : Move} (single : move ≠ .rewindAll) :
    Files.Refuses (move.call id).perform files id chunk held rest (move.Reaches id files) := by
  cases move with
  | seek offset whence => exact request_refuses rfl (Files.seek_refuses offers offset whence)
  | setPosition position => exact request_refuses rfl (Files.setPosition_refuses offers position)
  | rewind =>
      obtain ⟨error, after, ran, left⟩ := Files.rewind_refuses offers
      exact request_refuses rfl (Files.Refuses.late ran left trivial)
  | rewindAll => exact absurd rfl single

theorem offers_after (distinct : files.table.ids.Nodup) (offers : files.Offers id chunk held rest)
    {move : Move} {node : NodeId} (secluded : move = .rewindAll → files.Secluded id node) :
    (move.Reaches id files → ((move.call id).after files).Offers id chunk [] rest)
      ∧ (¬ move.Reaches id files → ((move.call id).after files).Offers id chunk held rest) := by
  by_cases all : move = .rewindAll
  · subst all
    have left := Files.rewindAll_offers distinct (secluded rfl) offers
    have after : (FileCall.rewindAll.after files) = (Files.rewindAll files).2 :=
      FileCall.bind_pure_state Files.rewindAll none files
    rwa [call, after]
  · obtain ⟨error, after, ran, left⟩ := refuses offers all
    rwa [FileCall.after, ran]

end Move

/-- In every state of every run a move on a pipe is refused or skipped, and what is read from the pipe
after it is what would have been read without it just where the move did not come to the stream or the
stream held nothing that was fetched or pushed back. -/
theorem repositioned_pipe_loses_held (host : Host) (maxFiles readChunk : Nat) (adopt : Bool)
    (calls : List FileCall) {id : FileId} {entry : Entry} {descriptor : Descriptor} {queued : Bytes} :
    let files := FileCall.afterAll calls (Files.new host maxFiles readChunk adopt)
    files.table.find? id = some entry → entry.mode.reading = true →
    files.host.open? entry.stream.descriptor = some (descriptor, .pipe queued) →
    ∀ move : Move, (move = .rewindAll → files.Quiet id descriptor.node) →
      (move ≠ .rewindAll → ∃ error, ((move.call id).perform files).1 = .error error)
        ∧ ((∀ readings, Reading.answers id readings ((move.call id).after files)
              = Reading.answers id readings files)
            ↔ (move.Reaches id files → entry.stream.pushback ++ entry.stream.ahead = [])) := by
  intro files found reading opened move quiet
  obtain ⟨kept, _⟩ := FileCall.afterAll_counted calls (Files.new_counted host maxFiles readChunk adopt).1
  have tidy := (Files.tidy_over_runs host maxFiles readChunk adopt calls).found found
  have offers : files.Offers id files.table.readChunk (entry.stream.pushback ++ entry.stream.ahead)
      (queued ++ entry.stream.pending) :=
    ⟨rfl, entry, found, reading, tidy, rfl, descriptor, queued, opened, rfl⟩
  have secluded (all : move = .rewindAll) : files.Secluded id descriptor.node := by
    refine ⟨fun other present => ?_, quiet all⟩
    rw [found] at present
    cases present
    exact Host.node?_of_open? opened
  obtain ⟨late, early⟩ := Move.offers_after kept.distinct offers secluded
  constructor
  · intro single
    obtain ⟨error, after, ran, _⟩ := Move.refuses offers single
    exact ⟨error, congrArg Prod.fst ran⟩
  · by_cases reached : move.Reaches id files
    · rw [Files.answers_eq_iff ⟨_, _, late reached, rfl⟩ ⟨_, _, offers, rfl⟩, List.nil_append,
        List.self_eq_append_left]
      exact ⟨fun nothing _ => nothing, fun nothing => nothing reached⟩
    · refine ⟨fun _ late => absurd late reached, fun _ readings => ?_⟩
      exact Files.answers_eq ⟨_, _, early reached, rfl⟩ ⟨_, _, offers, rfl⟩ readings

namespace PipeSample

def files : Files :=
  FileCall.afterAll [.ask (.readChar .stdin)]
    (Files.new (Host.start none none [0x61, 0x62, 0x63] true) 20 1024 false)

def entry : Entry where
  id := .stdin
  name := "(stdin)"
  mode := { base := .read, binary := false, update := false }
  node := some 7
  stream := { Stream.new 0 false with ahead := [0x62, 0x63], direction := .read }

/-- A seek that counts from where the pipe stands is not seen, and a rewind of all files is. -/
theorem rewind_is_seen :
    (∀ readings, Reading.answers .stdin readings (((Move.seek 0 1).call .stdin).after files)
        = Reading.answers .stdin readings files)
      ∧ ¬ ∀ readings, Reading.answers .stdin readings ((Move.rewindAll.call .stdin).after files)
        = Reading.answers .stdin readings files := by
  have found : files.table.find? .stdin = some entry := by cbv
  have opened : files.host.open? entry.stream.descriptor
      = some ({ node := 7, offset := 0, appends := false }, .pipe []) := by cbv
  have idle : files.table.entries.all (fun other => other.stream.pending.isEmpty) = true := by cbv
  have quiet : files.Quiet .stdin 7 := by
    intro other listed _
    exact .inl (List.isEmpty_iff.mp (List.all_eq_true.mp idle other listed))
  have moves := repositioned_pipe_loses_held (Host.start none none [0x61, 0x62, 0x63] true) 20 1024 false
    [.ask (.readChar .stdin)] found rfl opened
  constructor
  · refine (moves (.seek 0 1) (fun other => by cases other)).2.mpr fun reached => ?_
    rcases reached.1 with start | finish
    · exact absurd start (by decide)
    · exact absurd finish (by decide)
  · intro same
    have nothing := (moves .rewindAll fun _ => quiet).2.mp same rfl
    cases nothing

/-- Standard input is skipped by a rewind of all files, and nothing is left to read. -/
theorem skipped_rewind_loses_input :
    (FileCall.rewindAll.perform files).1 = .ok none
      ∧ Reading.answers .stdin [.char] files = [.ok (.byte (some 0x62))]
      ∧ Reading.answers .stdin [.char] (FileCall.rewindAll.after files) = [.ok (.byte none)] := by
  refine ⟨?_, ?_, ?_⟩ <;> cbv

end PipeSample

end Calculator
