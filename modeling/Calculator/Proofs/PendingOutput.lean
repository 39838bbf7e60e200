import Calculator.Proofs.Frame
import Calculator.Proofs.ReadBuffer
import Calculator.Proofs.TableBuffers

/-!
# Output that waits is never passed over

A flush passes over a file that is not open for writing, and over one that was last read. In every state
of every run no output waits in such a file, so a flush of one file, of all files or at the end leaves
none in a buffer. What waits on either side shows in the direction of the stream, and the marks of the
read buffer stand in order.
-/

namespace Calculator

def Stream.Followed (stream : Stream) : Prop :=
  ∃ buffer : ReadBuffer, buffer.Follows stream

/-- What waits in a stream agrees with its direction, the output is short of a full buffer, and the
input stands between the marks of the read buffer. -/
structure Stream.Accounted (stream : Stream) : Prop where
  output : stream.pending ≠ [] →
    stream.direction = .write ∧ stream.ahead = [] ∧ stream.pushback = []
  input : stream.ahead ≠ [] ∨ stream.pushback ≠ [] →
    stream.direction = .read ∧ stream.pending = []
  collected : stream.pending.length < Stream.bufferSize
  followed : stream.Followed
  marks : ∀ buffer : ReadBuffer, buffer.Follows stream →
    buffer.place ≤ buffer.filled ∧ buffer.filled ≤ Stream.bufferSize
      ∧ stream.aheadCount = buffer.filled - buffer.place + stream.pushback.length

theorem Stream.Tidy.accounted {stream : Stream} (tidy : stream.Tidy)
    (followed : stream.Followed) : stream.Accounted where
  output := by
    intro waiting
    have outward := tidy.output waiting
    exact ⟨outward, tidy.input (by rw [outward]; decide)⟩
  input := by
    intro held
    have inward : stream.direction = .read := by
      apply Decidable.byContradiction
      intro elsewhere
      obtain ⟨ahead, pushback⟩ := tidy.input elsewhere
      exact held.elim (absurd ahead) (absurd pushback)
    exact ⟨inward, tidy.nothing_pending (by rw [inward]; decide)⟩
  collected := tidy.collected
  followed := followed
  marks := by
    intro buffer follows
    have backs := follows.backs
    refine ⟨backs.ordered, backs.inside, ?_⟩
    rw [Stream.aheadCount, backs.ahead, backs.rest_length]

theorem Entry.Serves.unwritten {entry : Entry} {writing : Bool} {α : Type} {transfer : Transfer α}
    (serves : entry.Serves writing transfer) (unwritable : entry.mode.writing = false) :
    entry.Serves false transfer := by
  cases serves with
  | write bytes asked writable =>
      rw [unwritable] at writable
      cases writable
  | _ => constructor <;> assumption

namespace Transfer

theorem unwritten_frame :
    Frame fun before after => before.stream.pending = [] → after.stream.pending = [] where
  refl := fun _ written => written
  trans := fun _ _ _ one two written => two (one written)
  stream := fun _ _ _ _ pending written => pending.trans written
  read := fun _ _ written => written
  seek := fun _ _ written => written
  seekBack := fun _ _ written => written
  flush := fun channel _ => (Files.flush_channel channel).2.2

theorem served_unwritten {entry : Entry} {writing : Bool} {α : Type} {transfer : Transfer α}
    (serves : entry.Serves writing transfer) (unwritable : entry.mode.writing = false)
    (written : entry.stream.pending = []) (host : Host) :
    (transfer { stream := entry.stream, host }).2.stream.pending = [] :=
  (served_composed (serves.unwritten unwritable)).framed _ unwritten_frame _ written

theorem served_followed {entry : Entry} {α : Type} {transfer : Transfer α}
    (serves : entry.Serves true transfer) (followed : entry.stream.Followed) (host : Host) :
    (transfer { stream := entry.stream, host }).2.stream.Followed := by
  obtain ⟨calls, _, reached⟩ := served_composed serves { stream := entry.stream, host }
  rw [← reached]
  refine List.foldlRecOn (motive := fun channel : Channel => channel.stream.Followed) calls _ followed ?_
  rintro channel ⟨buffer, follows⟩ call _
  exact ⟨_, follows.called channel.host call⟩

end Transfer

namespace Files


variable {files : Files} {id : FileId} {entry : Entry}

/-- Output waits only in files that are open for writing. -/
def Writable (files : Files) : Prop :=
  ∀ id entry, files.table.find? id = some entry → entry.mode.writing = false →
    entry.stream.pending = []

/-- An entry that is changed under a handle, as it is found afterwards. -/
theorem Writable.update (writable : files.Writable) (changed : FileId) {change : Entry → Entry}
    (own : ∀ entry, entry.id = changed → (change entry).id = changed) (host : Host)
    (written : ∀ entry, files.table.find? changed = some entry →
      (change entry).mode.writing = false → (change entry).stream.pending = []) :
    Writable { table := files.table.update changed change, host } := by
  intro id entry found unwritable
  rw [FileTable.find?_update_eq _ _ _ own] at found
  split at found
  · obtain ⟨former, before, rfl⟩ := Option.map_eq_some_iff.mp found
    exact written former before unwritable
  · exact writable id entry found unwritable

theorem Step.writable {before after : Files} (step : Step before after) (writable : before.Writable) :
    after.Writable := by
  cases step with
  | @ran id _ _ ran =>
      obtain ⟨found, serves⟩ := ran
      rename_i entry α transfer
      have own := FileTable.id_of_find? found
      rw [run_files, FileTable.setStream]
      refine writable.update _ ?_ _ ?_
      · exact fun _ same => same
      · intro former listed unwritable
        rw [own, found] at listed
        cases listed
        exact Transfer.served_unwritten serves unwritable (writable id entry found unwritable) _
  | hosted _ _ => exact writable
  | entered _ own descriptor name mode _ =>
      intro id entry found unwritable
      rw [FileTable.find?, FileTable.append, List.find?_append, Option.or_eq_some_iff] at found
      rcases found with old | ⟨_, new⟩
      · exact writable id entry old unwritable
      · obtain rfl := List.mem_singleton.mp (List.mem_of_find?_eq_some new)
        rfl
  | replaced _ own _ _ _ =>
      exact writable.update own (fun _ _ => rfl) _ fun _ _ _ => rfl
  | dropped _ removed =>
      intro id entry found unwritable
      have differs : id ≠ removed := by
        rintro rfl
        have present := (List.mem_filter.mp (FileTable.mem_of_find? found)).2
        rw [FileTable.id_of_find? found] at present
        simp at present
      refine writable id entry ?_ unwritable
      rw [FileTable.find?, FileTable.remove, List.find?_filter] at found
      rw [FileTable.find?, ← found]
      congr
      funext entry
      by_cases own : entry.id = id <;> simp [own, differs]

theorem writable_over_runs (host : Host) (maxFiles readChunk : Nat) (adopt : Bool)
    (calls : List FileCall) :
    (FileCall.afterAll calls (Files.new host maxFiles readChunk adopt)).Writable := by
  have standard : (Files.new host maxFiles readChunk false).Writable := by
    intro id entry found _
    have present : entry ∈ Files.standardEntries host := FileTable.mem_of_find? found
    simp only [standardEntries, List.mem_cons, List.not_mem_nil, or_false] at present
    rcases present with rfl | rfl | rfl <;> rfl
  exact FileCall.afterAll_keeps (fun _ _ step => step.writable) calls
    ((new_path host maxFiles readChunk adopt).keeps (fun _ _ step => step.writable) standard)

/-- Every handle has one file, and where a flush would pass over a file no output waits in it. -/
structure Flushable (files : Files) : Prop where
  distinct : files.table.ids.Nodup
  tidy : files.Tidy
  writable : files.Writable

theorem Flushable.written (flushable : files.Flushable) (found : files.table.find? id = some entry)
    (passed : (entry.mode.writing && entry.stream.direction != .read) = false) :
    entry.stream.pending = [] := by
  rw [Bool.and_eq_false_iff, bne_eq_false_iff_eq] at passed
  rcases passed with unwritable | inward
  · exact flushable.writable id entry found unwritable
  · exact (flushable.tidy.found found).nothing_pending (by rw [inward]; decide)

theorem setStream_found {table : FileTable} (distinct : table.ids.Nodup)
    (found : table.find? id = some entry) : table.setStream id entry.stream = table := by
  have still : ∀ other ∈ table.entries,
      (if other.id == id then { other with stream := entry.stream } else other) = other := by
    intro other present
    split
    · rename_i own
      have listed := FileTable.find?_of_mem distinct present
      rw [beq_iff_eq.mp own, found] at listed
      cases listed
      rfl
    · rfl
  rw [FileTable.setStream, FileTable.update, List.map_congr_left still, List.map_id']

theorem run_flush_nothing (flushable : files.Flushable) (found : files.table.find? id = some entry)
    (written : entry.stream.pending = []) : run entry Transfer.flush files = (.ok (), files) := by
  obtain rfl := FileTable.id_of_find? found
  have nothing : Transfer.flush { stream := entry.stream, host := files.host }
      = (.ok (), { stream := entry.stream, host := files.host }) := Transfer.flush_nothing written
  rw [run, nothing]
  dsimp only
  rw [setStream_found flushable.distinct found]
  rfl

def flushAnyway (id : FileId) : FileM Unit := do
  run (← Files.entry id) Transfer.flush

theorem Flushable.flush_found (flushable : files.Flushable)
    (found : files.table.find? id = some entry) : flush id files = run entry Transfer.flush files := by
  rw [flush_run found]
  split
  · rfl
  · rename_i passed
    exact (run_flush_nothing flushable found (flushable.written found (by simpa using passed))).symm

theorem run_leaves {α : Type} {transfer : Transfer α} (found : files.table.find? id = some entry)
    (empties : (transfer { stream := entry.stream, host := files.host }).2.stream.pending = []) :
    (run entry transfer files).2.table.ids = files.table.ids
      ∧ ∀ other ∈ (run entry transfer files).2.table.entries,
        (other.id = id → other.stream.pending = []) ∧ (other.id ≠ id → other ∈ files.table.entries) := by
  rw [run_files, FileTable.id_of_find? found]
  refine ⟨FileTable.ids_setStream _ _ _, fun other present => ?_⟩
  obtain ⟨former, before, rfl⟩ := List.mem_map.mp present
  split
  · rename_i same
    rw [beq_iff_eq] at same
    exact ⟨fun _ => empties, fun differs => absurd same differs⟩
  · rename_i differs
    rw [beq_iff_eq] at differs
    exact ⟨fun same => absurd same differs, fun _ => before⟩

theorem missed_leaves (missing : files.table.find? id = none) :
    ∀ other ∈ files.table.entries,
      (other.id = id → other.stream.pending = []) ∧ (other.id ≠ id → other ∈ files.table.entries) := by
  refine fun other present => ⟨?_, fun _ => present⟩
  rintro rfl
  exact absurd (List.mem_map_of_mem present) ((files.table.find?_none_iff other.id).mp missing)

theorem Flushable.path {after : Files} (flushable : files.Flushable) (path : Path files after)
    (ids : after.table.ids = files.table.ids) : after.Flushable where
  distinct := by
    rw [ids]
    exact flushable.distinct
  tidy := path.tidy flushable.tidy
  writable := path.keeps (fun _ _ step => step.writable) flushable.writable

/-- A flush leaves no output in its file, and the other files as they were. -/
theorem Flushable.flush_leaves (flushable : files.Flushable) (id : FileId) :
    (flush id files).2.Flushable ∧ (flush id files).2.table.ids = files.table.ids
      ∧ ∀ entry ∈ (flush id files).2.table.entries,
        (entry.id = id → entry.stream.pending = [])
          ∧ (entry.id ≠ id → entry ∈ files.table.entries) := by
  have path := (flush_served false id files).path
  cases found : files.table.find? id with
  | none =>
      have still : (flush id files).2 = files := congrArg Prod.snd (Effect.bind_error (entry_missing found))
      rw [still]
      exact ⟨flushable, rfl, missed_leaves found⟩
  | some entry =>
      obtain ⟨ids, left⟩ := run_leaves found
        (flush_channel { stream := entry.stream, host := files.host }).2.2
      rw [← flushable.flush_found found] at ids left
      exact ⟨flushable.path path ids, ids, left⟩

theorem Flushable.flush_eq (flushable : files.Flushable) (id : FileId) :
    flush id files = flushAnyway id files := by
  cases found : files.table.find? id with
  | none =>
      have refused : flush id files = (.error (.notOpen id), files) :=
        Effect.bind_error (entry_missing found)
      rw [refused]
      exact (Effect.bind_error (entry_missing found)).symm
  | some entry =>
      have lookup : flushAnyway id files = run entry Transfer.flush files :=
        Effect.bind_ok (entry_found found)
      rw [flushable.flush_found found, lookup]

/-- Operations that agree as long as an invariant holds agree on all files. -/
theorem forAll_congr {invariant : Files → Prop} {one other : FileId → FileM Unit}
    (agree : ∀ files id, invariant files → one id files = other id files)
    (kept : ∀ files id, invariant files → invariant (one id files).2) (ids : List FileId)
    (holds : invariant files) : forAll one ids files = forAll other ids files := by
  induction ids generalizing files with
  | nil => rfl
  | cons id rest ih =>
      have left := kept files id holds
      rw [forAll_cons, forAll_cons, ← agree files id holds]
      rcases ran : one id files with ⟨answer, after⟩
      rw [ran] at left
      cases answer with
      | ok _ => exact ih left
      | error error =>
          dsimp only
          rw [ih left]

/-- Flushing files one after the other leaves no output in any of them. -/
theorem Flushable.foldl_flush_leaves (flushable : files.Flushable) (ids : List FileId) :
    (ids.foldl (fun files id => (flush id files).2) files).table.ids = files.table.ids
      ∧ ∀ entry ∈ (ids.foldl (fun files id => (flush id files).2) files).table.entries,
        (entry.id ∈ ids → entry.stream.pending = [])
          ∧ (entry.id ∉ ids → entry ∈ files.table.entries) := by
  induction ids generalizing files with
  | nil => exact ⟨rfl, fun entry present => ⟨fun absent => (by cases absent), fun _ => present⟩⟩
  | cons id rest ih =>
      obtain ⟨after, same, left⟩ := flushable.flush_leaves id
      obtain ⟨kept, later⟩ := ih after
      refine ⟨kept.trans same, fun entry present => ?_⟩
      obtain ⟨emptied, untouched⟩ := later entry present
      rw [List.mem_cons]
      by_cases again : entry.id ∈ rest
      · exact ⟨fun _ => emptied again, fun absent => absurd (.inr again) absent⟩
      · obtain ⟨first, other⟩ := left entry (untouched again)
        exact ⟨fun listed => first (listed.resolve_right again),
          fun absent => other fun own => absent (.inl own)⟩

theorem Flushable.flushAll_eq (flushable : files.Flushable) :
    flushAll files = forAll flushAnyway files.table.ids files :=
  forAll_congr (fun _ id kept => Flushable.flush_eq kept id)
    (fun _ id kept => (Flushable.flush_leaves kept id).1) files.table.ids flushable

theorem Flushable.flushAll_leaves (flushable : files.Flushable) :
    ∀ entry ∈ (flushAll files).2.table.entries, entry.stream.pending = [] := by
  have flushed : (flushAll files).2
      = files.table.ids.foldl (fun files id => (flush id files).2) files := forAll_files flush _ files
  obtain ⟨ids, left⟩ := flushable.foldl_flush_leaves files.table.ids
  rw [flushed]
  intro entry present
  refine (left entry present).1 ?_
  rw [← ids]
  exact List.mem_map_of_mem present

theorem Flushable.shutdown_leaves (flushable : files.Flushable) :
    ∀ entry ∈ (shutdown files).table.entries, entry.stream.pending = [] := by
  refine List.foldlRecOn (motive := fun later : Files => later.Each fun stream => stream.pending = [])
    _ _ flushable.flushAll_leaves ?_
  intro later written entry _
  rw [run_files]
  exact written.update entry.id (fun _ => (flush_channel _).2.2) _

theorem flushable_over_runs (host : Host) (maxFiles readChunk : Nat) (adopt : Bool)
    (calls : List FileCall) :
    (FileCall.afterAll calls (Files.new host maxFiles readChunk adopt)).Flushable where
  distinct := (FileCall.afterAll_counted calls (new_counted host maxFiles readChunk adopt).1).1.distinct
  tidy := tidy_over_runs host maxFiles readChunk adopt calls
  writable := writable_over_runs host maxFiles readChunk adopt calls

end Files

/-- In every state of every run, what waits in a stream agrees with its direction and its buffers are
accounted for; so passing over files makes no difference to a flush, and no output is left in a buffer
by the flush of a file, of all files or at the end. -/
theorem pending_output_is_never_skipped (host : Host) (maxFiles readChunk : Nat) (adopt : Bool)
    (calls : List FileCall) :
    let files := FileCall.afterAll calls (Files.new host maxFiles readChunk adopt)
    (∀ entry ∈ files.table.entries, entry.stream.Accounted)
      ∧ (∀ id, Files.flush id files = Files.flushAnyway id files
        ∧ ∀ entry ∈ (Files.flush id files).2.table.entries, entry.id = id → entry.stream.pending = [])
      ∧ (Files.flushAll files = Files.forAll Files.flushAnyway files.table.ids files
        ∧ ∀ entry ∈ (Files.flushAll files).2.table.entries, entry.stream.pending = [])
      ∧ ∀ entry ∈ (Files.shutdown files).table.entries, entry.stream.pending = [] := by
  intro files
  have flushable : files.Flushable := Files.flushable_over_runs host maxFiles readChunk adopt calls
  have followed : files.Each Stream.Followed :=
    Files.each_over_runs (fun descriptor buffered => ⟨_, .opened descriptor buffered⟩)
      Transfer.served_followed host maxFiles readChunk adopt calls
  refine ⟨?_, ?_, ⟨flushable.flushAll_eq, flushable.flushAll_leaves⟩, flushable.shutdown_leaves⟩
  · intro entry present
    exact (flushable.tidy entry present).accounted (followed entry present)
  · intro id
    refine ⟨flushable.flush_eq id, ?_⟩
    intro entry present own
    exact ((flushable.flush_leaves id).2.2 entry present).1 own

end Calculator
