import Calculator.Proofs.BufferedFiles
import Calculator.Proofs.Bystanders
import Calculator.Proofs.OpenFile
import Calculator.Proofs.Openings
import Calculator.Proofs.TableBuffers

/-!
# Files that are appended to

A file that is open for appending only grows. However it is read, moved and flushed, what the host has
of it in the end is what it held before and then all that was written, in order and once. The host has
a largest file, and what would lie beyond its end is lost, also where the write was answered long
before.
-/

namespace Calculator

namespace Bytes

def appendWithin (content written : Bytes) : Bytes :=
  content ++ written.take (Content.maxSize - content.length)

variable (content : Bytes)

@[simp]
theorem appendWithin_nil : content.appendWithin [] = content := by
  rw [appendWithin, List.take_nil, List.append_nil]

theorem appendWithin_append (first second : Bytes) :
    content.appendWithin (first ++ second) = (content.appendWithin first).appendWithin second := by
  have room : Content.maxSize - (content ++ first.take (Content.maxSize - content.length)).length
      = Content.maxSize - content.length - first.length := by
    rw [List.length_append, List.length_take]
    omega
  rw [appendWithin, appendWithin, appendWithin, room, List.take_append, List.append_assoc]

theorem appendWithin_full {content : Bytes} (full : Content.maxSize ≤ content.length) (written : Bytes) :
    content.appendWithin written = content := by
  rw [appendWithin, Nat.sub_eq_zero_of_le full, List.take_zero, List.append_nil]

theorem appendWithin_overfull {content written : Bytes}
    (large : Content.maxSize - content.length < written.length) :
    Content.maxSize ≤ (content.appendWithin written).length := by
  rw [appendWithin, List.length_append, List.length_take]
  omega

end Bytes

/-- How a write ends, to a file that was to hold `total`; `holds` tells what it is to hold now, and
`large` is the error for a file that would be too large. -/
inductive Added {ε : Type} (holds : Bytes → Prop) (large : ε) (total bytes : Bytes) :
    Except ε Unit → Prop
  | taken (reached : holds (total.appendWithin bytes)) : Added holds large total bytes (.ok ())
  | full (reached : holds (total.appendWithin bytes))
      (largest : Content.maxSize ≤ (total.appendWithin bytes).length) :
      Added holds large total bytes (.error large)
  | refused {error : ε} (other : error ≠ large) (still : holds total) :
      Added holds large total bytes (.error error)

theorem Added.map {ε δ : Type} {holds : Bytes → Prop} {large : ε} {total bytes : Bytes}
    {answer : Except ε Unit} (added : Added holds large total bytes answer) {wrap : ε → δ}
    (wraps : Function.Injective wrap) {held : Bytes → Prop} (keeps : ∀ later, holds later → held later) :
    Added held (wrap large) total bytes (answer.mapError wrap) := by
  cases added with
  | taken reached => exact .taken (keeps _ reached)
  | full reached largest => exact .full (keeps _ reached) largest
  | refused other still => exact .refused (fun same => other (wraps same)) (keeps _ still)

/-- The stream appends to the file in `node`, which is to hold `total` when all is written. -/
def Channel.Appends (channel : Channel) (node : NodeId) (total : Bytes) : Prop :=
  ∃ descriptor content,
    channel.host.open? channel.stream.descriptor = some (descriptor, .file content)
      ∧ descriptor.node = node ∧ descriptor.appends = true ∧ channel.stream.buffered = true
      ∧ content.toBytes.appendWithin channel.stream.pending = total

namespace Transfer

open Effect (Always)

variable {channel after : Channel} {node : NodeId} {total : Bytes}

/-- The host may move the descriptor. -/
theorem appends_moved (appends : channel.Appends node total) {host : Host}
    (moves : ∀ descriptor content,
      channel.host.open? channel.stream.descriptor = some (descriptor, .file content) →
      ∃ offset, host.open? channel.stream.descriptor
        = some ({ descriptor with offset }, .file content)) :
    Channel.Appends { channel with host } node total := by
  obtain ⟨descriptor, content, opened, on, behind, buffered, whole⟩ := appends
  obtain ⟨offset, reached⟩ := moves descriptor content opened
  exact ⟨{ descriptor with offset }, content, reached, on, behind, buffered, whole⟩

/-- A flush brings the file to what it is to hold; it is refused only where that is the largest file. -/
theorem flush_appends (appends : channel.Appends node total) :
    (flush channel).2.Appends node total ∧ (flush channel).2.stream.pending = []
      ∧ ((flush channel).1 = .ok ()
        ∨ (flush channel).1 = .error .fileTooLarge ∧ Content.maxSize ≤ total.length) := by
  obtain ⟨descriptor, content, opened, on, behind, buffered, rfl⟩ := appends
  obtain ⟨failed, ran⟩ := request_eq
    (fun host descriptor => host.write descriptor channel.stream.pending)
    { channel with stream := { channel.stream with pending := [] } }
  obtain ⟨stored, reached, bytes⟩ := Host.write_open? opened channel.stream.pending
  have start : descriptor.writeStart content = content.toBytes.length := by
    rw [Descriptor.writeStart, if_pos behind, Content.size_eq]
  rw [flush_eq, ran]
  refine ⟨⟨_, stored, reached, on, behind, buffered, ?_⟩, rfl, ?_⟩
  · rw [Bytes.appendWithin_nil, bytes, Descriptor.taken, start, Bytes.patch_end]
    rfl
  · dsimp only
    rw [Host.write_file opened, start]
    split
    · exact .inl rfl
    · rename_i large
      exact .inr ⟨rfl, Bytes.appendWithin_overfull (Nat.lt_of_not_le large)⟩

theorem appends_frame (node : NodeId) :
    Frame fun before after => ∀ total, before.Appends node total → after.Appends node total where
  refl := fun _ _ appends => appends
  trans := fun _ _ _ one two total appends => two total (one total appends)
  stream := by
    rintro channel stream descriptor buffered pending total ⟨used, content, opened, on, behind, rest⟩
    refine ⟨used, content, ?_, on, behind, ?_⟩
    · rwa [descriptor]
    · rwa [buffered, pending]
  read := fun channel count total appends =>
    appends_moved appends fun _ _ opened => Host.read_open? opened count
  seek := fun channel target total appends =>
    appends_moved appends fun _ _ opened => Host.seek_open? opened target
  seekBack := fun channel count total appends =>
    appends_moved appends fun _ _ opened => Host.seekBack_open? opened count
  flush := fun _ _ appends => (flush_appends appends).1

/-- Written bytes are to stand behind all that the file is to hold, also where the host refuses them. -/
theorem writeAll_appends (appends : channel.Appends node total) (bytes : Bytes) :
    (writeAll bytes channel).2.Appends node (total.appendWithin bytes)
      ∧ ((writeAll bytes channel).1 = .ok ()
        ∨ (writeAll bytes channel).1 = .error .fileTooLarge
          ∧ Content.maxSize ≤ (total.appendWithin bytes).length) := by
  obtain ⟨descriptor, content, opened, on, behind, buffered, rfl⟩ := appends
  rw [← Bytes.appendWithin_append, writeAll_buffered buffered]
  have collected : Channel.Appends
      { channel with stream := { channel.stream with pending := channel.stream.pending ++ bytes } } node
      (content.toBytes.appendWithin (channel.stream.pending ++ bytes)) :=
    ⟨descriptor, content, opened, on, behind, buffered, rfl⟩
  dsimp only
  split
  · obtain ⟨reached, _, answered⟩ := flush_appends collected
    exact ⟨reached, answered⟩
  · exact ⟨collected, .inl rfl⟩

def writeNext (bytes : Bytes) : Transfer Unit := do
  prepareWrite
  writeAll bytes

theorem prepareWrite_fault (appends : channel.Appends node total) {fault : Fault}
    (failed : (prepareWrite channel).1 = .error fault) : fault = .invalidArgument := by
  obtain ⟨descriptor, content, opened, _⟩ := appends
  unfold prepareWrite at failed
  rw [Effect.get_bind_run] at failed
  dsimp only at failed
  split at failed
  · rcases discarded : discardAhead channel with ⟨answer, after⟩
    cases answer with
    | ok _ =>
        rw [Effect.bind_ok discarded] at failed
        cases failed
    | error reason =>
        rw [Effect.bind_error discarded] at failed
        cases failed
        rw [discardAhead_eq] at discarded
        dsimp only at discarded
        split at discarded
        · obtain ⟨_, asked⟩ := request_eq
            (fun host descriptor => host.seekBack descriptor channel.stream.aheadCount)
            { channel with stream := { channel.stream with ahead := [], pushback := [] } }
          rw [asked] at discarded
          exact Host.seekBack_fault opened (congrArg Prod.fst discarded)
        · cases discarded
  · cases failed

theorem prepareWrite_outward (outward : channel.stream.direction = .write) :
    prepareWrite channel = (.ok (), channel) := by
  unfold prepareWrite
  rw [Effect.get_bind_run, outward]
  obtain ⟨stream, host⟩ := channel
  obtain ⟨descriptor, buffered, ahead, pushback, pending, eof, failed, direction⟩ := stream
  cases outward
  rfl

theorem writeNext_adds (appends : channel.Appends node total) (bytes : Bytes) :
    Added ((writeNext bytes channel).2.Appends node) .fileTooLarge total bytes
      (writeNext bytes channel).1 := by
  unfold writeNext
  have turned := prepareWrite_framed _ (appends_frame node) channel total appends
  rcases prepared : prepareWrite channel with ⟨answer, between⟩
  rw [prepared] at turned
  cases answer with
  | error fault =>
      have reason := prepareWrite_fault appends (congrArg Prod.fst prepared)
      rw [Effect.bind_error prepared]
      exact .refused (by rw [reason]; decide) turned
  | ok _ =>
      obtain ⟨reached, answered⟩ := writeAll_appends turned bytes
      rw [Effect.bind_ok prepared]
      rcases answered with wrote | ⟨large, full⟩
      · rw [wrote]
        exact .taken reached
      · rw [large]
        exact .full reached full

theorem writeNext_again (appends : channel.Appends node total)
    (outward : channel.stream.direction = .write) {bytes : Bytes} {fault : Fault}
    (failed : (writeNext bytes channel).1 = .error fault) : fault = .fileTooLarge := by
  rw [writeNext, Effect.bind_ok (prepareWrite_outward outward)] at failed
  rcases (writeAll_appends appends bytes).2 with wrote | ⟨large, _⟩
  · rw [wrote] at failed
    cases failed
  · rw [large] at failed
    cases failed
    rfl

theorem writeNext_outward (tidy : channel.stream.Tidy) {bytes : Bytes}
    (wrote : writeNext bytes channel = (.ok (), after)) : after.stream.direction = .write := by
  have writes : Effect.Ensures (Heads Anyway) Rests (writeNext bytes) fun _ => Heads Outward :=
    prepareWrite_ensures.bind fun _ => writeAll_keeps bytes
  have reached := (writes channel ⟨tidy, trivial⟩).2
  rw [wrote] at reached
  exact (reached () rfl).2

end Transfer

namespace Files

open Effect (Always)

variable {files after : Files} {id other : FileId} {node : NodeId} {total later : Bytes}
  {entry : Entry} {α : Type}

/-- The file of `id` is alone on `node`, which it appends to and which is to hold `total`. -/
structure Appends (files : Files) (id : FileId) (node : NodeId) (total : Bytes) : Prop where
  distinct : files.table.ids.Nodup
  alone : files.Alone id node
  opened : ∃ entry, files.table.find? id = some entry ∧ entry.mode.writing = true
    ∧ Channel.Appends { stream := entry.stream, host := files.host } node total

theorem Appends.found (appends : files.Appends id node total)
    (found : files.table.find? id = some entry) :
    entry.mode.writing = true
      ∧ Channel.Appends { stream := entry.stream, host := files.host } node total := by
  obtain ⟨other, present, opened⟩ := appends.opened
  rw [found] at present
  cases present
  exact opened

theorem Appends.aside (appends : files.Appends id node total) (aside : Aside id node files after) :
    after.Appends id node total where
  distinct := aside.kept.nodup appends.distinct
  alone := aside.alone appends.alone
  opened := by
    obtain ⟨entry, found, writing, descriptor, content, opened, on, behind, rest⟩ := appends.opened
    obtain ⟨held, stored⟩ := Host.open?_some opened
    have still := aside.same.descriptor entry.stream.descriptor
      (by rw [← on]; exact Host.node?_of_open? opened)
    refine ⟨entry, aside.found.trans found, writing, descriptor, content, ?_, on, behind, rest⟩
    refine Host.open?_of (still.trans held) ?_
    rw [on] at stored ⊢
    exact aside.same.stored.trans stored

/-- Only what the transfer leaves of its own channel decides what the file is to hold. -/
theorem Appends.run {transfer : Transfer α} (appends : files.Appends id node total)
    (found : files.table.find? id = some entry)
    (away : Always (Transfer.Away (node + 1)) transfer)
    (reached : (transfer { stream := entry.stream, host := files.host }).2.Appends node later) :
    (run entry transfer files).2.Appends id node later := by
  obtain ⟨writing, _, _, opened, on, _⟩ := appends.found found
  have apart : files.host.node? entry.stream.descriptor ≠ some (node + 1) := by
    rw [Host.node?_of_open? opened, on]
    simp
  have nodes := ((away { stream := entry.stream, host := files.host }).2 apart).node?
  have own := FileTable.id_of_find? found
  rw [run_files, own]
  generalize (transfer { stream := entry.stream, host := files.host }).2 = channel at *
  constructor
  case distinct =>
    rw [FileTable.ids_setStream]
    exact appends.distinct
  case alone => exact appends.alone.setStream nodes (absurd rfl)
  case opened =>
    exact ⟨{ entry with stream := channel.stream }, FileTable.find?_setStream_self found _, writing,
      reached⟩

def KeepsAppends (id : FileId) (node : NodeId) (before after : Files) : Prop :=
  ∀ total, before.Appends id node total → after.Appends id node total

theorem appends_chain (id : FileId) (node : NodeId) : Chain (KeepsAppends id node) where
  refl := fun _ _ appends => appends
  trans := fun _ _ _ one two total appends => two total (one total appends)

theorem appends_keepsRuns (id : FileId) (node : NodeId) : KeepsRuns (KeepsAppends id node) id := by
  intro α transfer framed files entry found total appends
  exact appends.run found (framed _ (Transfer.away_frame _))
    (framed _ (Transfer.appends_frame node) _ total (appends.found found).2)

theorem write_run (found : files.table.find? id = some entry) (writing : entry.mode.writing = true)
    (bytes : Bytes) : write id bytes files = run entry (Transfer.writeNext bytes) files :=
  Effect.bind_ok (writableEntry_found found writing)

theorem run_answer (entry : Entry) (transfer : Transfer α) (files : Files) :
    (run entry transfer files).1
      = (transfer { stream := entry.stream, host := files.host }).1.mapError FileError.host := rfl

theorem write_adds (appends : files.Appends id node total) (bytes : Bytes) :
    Added ((write id bytes files).2.Appends id node) (.host .fileTooLarge) total bytes
      (write id bytes files).1 := by
  obtain ⟨entry, found, writing, opened⟩ := appends.opened
  have away : Always (Transfer.Away (node + 1)) (Transfer.writeNext bytes) :=
    Always.bind Transfer.Away.trans (Transfer.prepareWrite_framed _ (Transfer.away_frame _))
      fun _ => Transfer.writeAll_away bytes
  rw [write_run found writing, run_answer]
  exact (Transfer.writeNext_adds opened bytes).map (fun _ _ => FileError.host.inj)
    fun later left => appends.run found away left

/-- Right after a write that was taken, only the size of the file can refuse another. -/
theorem write_again {bytes more : Bytes} {error : FileError} (tidy : files.Tidy)
    (appends : files.Appends id node total) (reached : after.Appends id node later)
    (wrote : write id bytes files = (.ok (), after)) (failed : (write id more after).1 = .error error) :
    error = .host .fileTooLarge := by
  obtain ⟨entry, found, writing, _⟩ := appends.opened
  rw [write_run found writing] at wrote
  obtain ⟨channel, ran, left⟩ := run_ok wrote
  rw [FileTable.id_of_find? found] at left
  have listed : after.table.find? id = some { entry with stream := channel.stream } :=
    left ▸ FileTable.find?_setStream_self found channel.stream
  rw [write_run listed writing, run_answer] at failed
  have opened := (reached.found listed).2
  have outward := Transfer.writeNext_outward (tidy.found found) ran
  cases answered : (Transfer.writeNext more { stream := channel.stream, host := after.host }).1 with
  | ok _ =>
      rw [answered] at failed
      cases failed
  | error fault =>
      rw [answered] at failed
      cases failed
      rw [Transfer.writeNext_again opened outward answered]

theorem writeTerminated_adds (tidy : files.Tidy) (appends : files.Appends id node total)
    (bytes : Bytes) :
    Added ((writeTerminated id bytes files).2.Appends id node) (.host .fileTooLarge) total
      (bytes ++ [0]) (writeTerminated id bytes files).1 := by
  unfold writeTerminated
  have first := write_adds appends bytes
  rcases ran : write id bytes files with ⟨answer, between⟩
  rw [ran] at first
  cases first with
  | taken reached =>
      have again : ∀ error, (write id [0] between).1 = .error error → error = .host .fileTooLarge :=
        fun _ => write_again tidy appends reached ran
      have second := write_adds reached [0]
      rw [Effect.bind_ok ran]
      generalize (write id [0] between).1 = answer at second again ⊢
      cases second with
      | taken final => exact .taken (by rwa [Bytes.appendWithin_append])
      | full final largest =>
          exact .full (by rwa [Bytes.appendWithin_append]) (by rwa [Bytes.appendWithin_append])
      | refused other _ => exact absurd (again _ rfl) other
  | full reached largest =>
      rw [Effect.bind_error ran]
      have nothing := Bytes.appendWithin_full largest [0]
      rw [← Bytes.appendWithin_append] at nothing
      exact .full (by rwa [nothing]) (by rwa [nothing])
  | refused other still =>
      rw [Effect.bind_error ran]
      exact .refused other still

end Files

namespace FileRequest

variable {files : Files} {id : FileId} {node : NodeId} {total : Bytes} {request : FileRequest}

/-- The bytes that a request writes. -/
def output : FileRequest → Bytes
  | write _ bytes => bytes
  | writeTerminated _ bytes => bytes ++ [0]
  | _ => []

/-- The bytes that a request adds to the file of `id`, by its answer. Those of a write that the host
refuses because of the size of the file are counted, since the host has taken what the file can hold. -/
def added (id : FileId) (request : FileRequest) (answer : Except FileError FileAnswer) : Bytes :=
  if request.handle = id then
    match answer with
    | .ok _ | .error (.host .fileTooLarge) => request.output
    | .error _ => []
  else []

def addedAll (id : FileId) : List FileRequest → List (Except FileError FileAnswer) → Bytes
  | request :: requests, answer :: answers => request.added id answer ++ addedAll id requests answers
  | _, _ => []

theorem added_of_unwritten (unwritten : request.writes = false)
    (answer : Except FileError FileAnswer) : request.added id answer = [] := by
  have nothing : request.output = [] := by
    cases request <;> first | rfl | cases unwritten
  unfold added
  split
  · split <;> first | exact nothing | rfl
  · rfl

theorem added_elsewhere (differs : request.handle ≠ id) (answer : Except FileError FileAnswer) :
    request.added id answer = [] :=
  if_neg differs

theorem added_refused {error : FileError} (other : error ≠ .host .fileTooLarge) :
    request.added id (.error error) = [] := by
  unfold added
  split
  · split
    · rename_i answered
      cases answered
    · rename_i answered
      cases answered
      exact absurd rfl other
    · rfl
  · rfl

/-- A request is to add what its write is to add. -/
theorem appends_of_added {program : FileM Unit}
    (performs : request.perform = program >>= fun _ => pure .done) (own : request.handle = id)
    (added : Added ((program files).2.Appends id node) (.host .fileTooLarge) total request.output
      (program files).1) :
    (request.perform files).2.Appends id node
      (total.appendWithin (request.added id (request.perform files).1)) := by
  rw [performs]
  rcases ran : program files with ⟨answer, after⟩
  rw [ran] at added
  cases added with
  | taken reached =>
      rw [Effect.bind_ok ran, Effect.pure_run, FileRequest.added, if_pos own]
      exact reached
  | full reached _ =>
      rw [Effect.bind_error ran, FileRequest.added, if_pos own]
      exact reached
  | refused other still =>
      rw [Effect.bind_error ran, added_refused other, Bytes.appendWithin_nil]
      exact still

theorem perform_appends (tidy : files.Tidy) (appends : files.Appends id node total)
    (request : FileRequest) :
    (request.perform files).2.Appends id node
      (total.appendWithin (request.added id (request.perform files).1)) := by
  by_cases own : request.handle = id
  · cases writes : request.writes with
    | false =>
        rw [added_of_unwritten writes, Bytes.appendWithin_nil]
        exact Files.perform_always (Files.appends_chain id node) (Files.appends_keepsRuns id node) own
          writes files total appends
    | true =>
        cases request with
        | write other bytes =>
            obtain rfl : other = id := own
            exact appends_of_added rfl rfl (Files.write_adds appends bytes)
        | writeTerminated other bytes =>
            obtain rfl : other = id := own
            exact appends_of_added rfl rfl (Files.writeTerminated_adds tidy appends bytes)
        | _ => cases writes
  · rw [added_elsewhere own, Bytes.appendWithin_nil]
    exact appends.aside (Files.perform_aside own appends.alone)

theorem performAll_appends (tidy : files.Tidy) (appends : files.Appends id node total)
    (requests : List FileRequest) :
    (performAll requests files).2.Tidy
      ∧ (performAll requests files).2.Appends id node
        (total.appendWithin (addedAll id requests (performAll requests files).1)) := by
  induction requests generalizing files total with
  | nil =>
      refine ⟨tidy, ?_⟩
      rw [performAll, addedAll, Bytes.appendWithin_nil]
      · exact appends
      · simp
  | cons request rest ih =>
      have kept := (Files.perform_upholds request files tidy).1
      have step := perform_appends tidy appends request
      rcases ran : request.perform files with ⟨answer, after⟩
      rw [ran] at kept step
      obtain ⟨last, final⟩ := ih kept step
      simp only [performAll, ran, addedAll]
      exact ⟨last, by rwa [Bytes.appendWithin_append]⟩

end FileRequest

namespace Files

variable {files : Files} {id : FileId} {node : NodeId} {total : Bytes}

/-- A file that was only ever added to is stored in the end as it is to be. -/
theorem appends_await (id : FileId) (node : NodeId) (total : Bytes) :
    Awaits (fun files => files.Appends id node total
        ∧ ∀ entry, files.table.find? id = some entry → entry.stream.Tidy) id node total where
  distinct := fun _ waits => waits.1.distinct
  alone := fun _ waits => waits.1.alone
  found := by
    rintro files ⟨appends, _⟩
    obtain ⟨entry, found, _⟩ := appends.opened
    exact ⟨entry, found⟩
  aside := by
    rintro files after ⟨appends, tidy⟩ aside
    exact ⟨appends.aside aside, fun entry found => tidy entry (aside.found ▸ found)⟩
  flushed := by
    rintro files entry ⟨appends, tidy⟩ found
    refine ⟨appends_keepsRuns id node _ Transfer.flush_framed files entry found total appends, ?_⟩
    intro other listed
    rw [run_files, FileTable.id_of_find? found, FileTable.find?_setStream_self found] at listed
    cases listed
    exact Transfer.flush_keeps.tidies _ (tidy entry found)
  output := by
    rintro files entry ⟨appends, _⟩ found
    obtain ⟨⟨descriptor, content, opened, on, _, _, whole⟩, nothing, _⟩ :=
      Transfer.flush_appends (appends.found found).2
    rw [nothing, Bytes.appendWithin_nil] at whole
    exact ⟨content, on ▸ (Host.open?_some opened).2, whole⟩
  idle := by
    rintro files entry ⟨appends, tidy⟩ found idle
    obtain ⟨writing, descriptor, content, opened, on, _, _, whole⟩ := appends.found found
    have inward : entry.stream.direction = .read := by simpa [writing] using idle
    have nothing := (tidy entry found).nothing_pending (by rw [inward]; decide)
    rw [nothing, Bytes.appendWithin_nil] at whole
    exact ⟨content, on ▸ (Host.open?_some opened).2, whole⟩

/-- A file that was just opened for appending is to hold what it holds. -/
theorem JustOpened.appends {entry : Entry} {descriptor : Descriptor} {content : Content}
    (opened : files.JustOpened id) (distinct : files.table.ids.Nodup)
    (found : files.table.find? id = some entry) (appending : entry.mode.appending = true)
    (regular : files.host.open? entry.stream.descriptor = some (descriptor, .file content))
    (alone : files.Alone id descriptor.node) :
    files.Appends id descriptor.node content.toBytes where
  distinct := distinct
  alone := alone
  opened := by
    obtain ⟨used, name, mode, listed, node, fresh, _⟩ := opened.opened
    rw [found] at listed
    cases listed
    have held := (Host.open?_some regular).1
    change files.host.descriptors[used]? = _ at held
    rw [fresh] at held
    cases held
    have behind : mode.base = .append := by simpa [newEntry, Mode.appending] using appending
    refine ⟨_, found, ?_, _, content, regular, rfl, ?_, rfl, Bytes.appendWithin_nil _⟩
    · simp [newEntry, Mode.writing, behind]
    · simp [Mode.request, behind]

end Files

open FileRequest

/-- Whatever is asked of a file that was opened for appending, and of others beside it, the host has in
the end what it had of the file and then all that was written to it, as far as the largest file
reaches. -/
theorem appended_file_grows (host : Host) (maxFiles readChunk : Nat) (adopt : Bool)
    (calls : List FileCall) (opening : FileCall) {id : FileId} {entry : Entry} {descriptor : Descriptor}
    {content : Content} :
    let before := FileCall.afterAll calls (Files.new host maxFiles readChunk adopt)
    let opened := opening.after before
    (opening.perform before).1 = .ok (some id) →
    opened.table.find? id = some entry → entry.mode.appending = true →
    opened.host.open? entry.stream.descriptor = some (descriptor, .file content) →
    opened.Alone id descriptor.node →
    ∀ (requests : List FileRequest) (ending : Ending),
      (ending.run id (performAll requests opened).2).host.Stores descriptor.node
        (content.toBytes.appendWithin (addedAll id requests (performAll requests opened).1)) := by
  intro before opened answered found appending regular alone requests ending
  obtain ⟨kept, _⟩ := FileCall.afterAll_counted calls (Files.new_counted host maxFiles readChunk adopt).1
  have fresh := FileCall.perform_opened kept opening answered
  have distinct := ((FileCall.outcome kept opening).kept kept).distinct
  have tidy : opened.Tidy :=
    (opening.perform_upholds before (Files.tidy_over_runs host maxFiles readChunk adopt calls)).1
  have appends := fresh.appends distinct found appending regular alone
  obtain ⟨last, final⟩ := performAll_appends tidy appends requests
  have reached : ending.reaches id = true := by
    cases ending <;> simp [Ending.reaches, fresh.ordinary]
  exact ending.run_stores (Files.appends_await id descriptor.node _)
    ⟨final, fun _ listed => last.found listed⟩ reached

namespace AppendedSample

def opened (host : Host) : Files :=
  (FileCall.openFile "a" "a+").after (FileCall.afterAll [] (Files.new host 20 1024 false))

def entry : Entry where
  id := ⟨3⟩
  name := "a"
  mode := { base := .append, binary := false, update := true }
  node := some 10
  stream := Stream.new 3 true

def requests : List FileRequest :=
  [.write ⟨3⟩ [0x78], .seek ⟨3⟩ 1 0, .writeTerminated ⟨3⟩ [0x79], .setPosition ⟨3⟩ 2, .readChar ⟨3⟩,
    .unreadChar ⟨3⟩ 0x3F, .write ⟨3⟩ [0x7A]]

theorem appended_sample_grows :
    (performAll requests (opened OneFile.host)).1
        = [.ok .done, .ok .done, .ok .done, .ok .done, .ok (.byte (some 0x63)), .ok .done, .ok .done]
      ∧ (Ending.shutdown.run ⟨3⟩ (performAll requests (opened OneFile.host)).2).host.Stores 10
          [0x61, 0x62, 0x63, 0x64, 0x65, 0x78, 0x79, 0x00, 0x7A] := by
  have answered : ((FileCall.openFile "a" "a+").perform
      (FileCall.afterAll [] (Files.new OneFile.host 20 1024 false))).1 = .ok (some ⟨3⟩) := by cbv
  have found : (opened OneFile.host).table.find? ⟨3⟩ = some entry := by cbv
  have regular : (opened OneFile.host).host.open? entry.stream.descriptor
      = some ({ node := 10, offset := 0, appends := true },
          .file (Content.ofBytes [0x61, 0x62, 0x63, 0x64, 0x65])) := by cbv
  have elsewhere : (opened OneFile.host).table.entries.all
      (fun other => other.id == ⟨3⟩
        || (opened OneFile.host).host.node? other.stream.descriptor != some 10) = true := by cbv
  have alone : (opened OneFile.host).Alone ⟨3⟩ 10 := by
    intro other listed differs
    have one := List.all_eq_true.mp elsewhere other listed
    simpa [differs] using one
  have answers : (performAll requests (opened OneFile.host)).1
      = [.ok .done, .ok .done, .ok .done, .ok .done, .ok (.byte (some 0x63)), .ok .done,
        .ok .done] := by cbv
  have stored := appended_file_grows OneFile.host 20 1024 false [] (.openFile "a" "a+") answered found
    rfl regular alone requests .shutdown
  refine ⟨answers, ?_⟩
  have whole : (Content.ofBytes [0x61, 0x62, 0x63, 0x64, 0x65]).toBytes.appendWithin
      (addedAll ⟨3⟩ requests (performAll requests (opened OneFile.host)).1)
        = [0x61, 0x62, 0x63, 0x64, 0x65, 0x78, 0x79, 0x00, 0x7A] := by
    rw [answers]
    rfl
  exact whole ▸ stored

def largeHost : Host :=
  (OneFile.host.setLength "a" 17592186040319).2

def largeContent : Content :=
  (Content.ofBytes [0x61, 0x62, 0x63, 0x64, 0x65]).resize 17592186040319

def overflow : List FileRequest :=
  [.write ⟨3⟩ [0x78, 0x79], .flush ⟨3⟩]

def storedSize? (host : Host) (node : NodeId) : Option Nat :=
  match host.nodes[node]? with
  | some (.file content) => some content.size
  | _ => none

/-- A write of two bytes is answered where there is room for one, and a flush that succeeds in the end
leaves the other out. -/
theorem largest_file_loses_output :
    (opened largeHost).host.open? entry.stream.descriptor
        = some ({ node := 10, offset := 0, appends := true }, .file largeContent)
      ∧ (performAll overflow (opened largeHost)).1 = [.ok .done, .error (.host .fileTooLarge)]
      ∧ (Files.flush ⟨3⟩ (performAll overflow (opened largeHost)).2).1 = .ok ()
      ∧ ¬ (Ending.flush.run ⟨3⟩ (performAll overflow (opened largeHost)).2).host.Stores 10
          (largeContent.toBytes ++ [0x78, 0x79]) := by
  refine ⟨by cbv, by cbv, by cbv, ?_⟩
  rintro ⟨stored, present, whole⟩
  have length := congrArg List.length whole
  rw [List.length_append, ← Content.size_eq, ← Content.size_eq] at length
  have before : largeContent.size = 17592186040319 := by cbv
  have held : storedSize? (Ending.flush.run ⟨3⟩ (performAll overflow (opened largeHost)).2).host 10
      = some 17592186040320 := by cbv
  rw [storedSize?, present] at held
  have after : stored.size = 17592186040320 := Option.some.inj held
  rw [before, after] at length
  simp at length

end AppendedSample

end Calculator
