import Calculator.Proofs.OpenFile
import Calculator.Proofs.OpenedNames
import Calculator.Proofs.Openings
import Calculator.Proofs.PendingOutput

/-!
# Files that are reopened

A file is reopened under the handle that it has or had. What was written to it is on its old file before
the new one is asked for, so that no more is lost than what the new request itself empties. An open file
that cannot be reopened is gone from the table, a closed one stays closed; no other file has a part in it.
-/

namespace Calculator

namespace Host

variable {host : Host} {id other : DescriptorId} {descriptor : Descriptor}
  {content : Content} {bytes : Bytes}

theorem write_stores (opened : host.open? id = some (descriptor, .file content))
    (taken : (host.write id bytes).1 = .ok ()) :
    (host.write id bytes).2.Stores descriptor.node
      (content.toBytes.patch (descriptor.writeStart content) bytes) := by
  have fits := (write_ok_iff opened bytes).mp taken
  obtain ⟨stored, reached, patched⟩ := write_open? opened bytes
  rw [Descriptor.taken_of_fits fits] at patched
  exact ⟨stored, (open?_some reached).2, patched⟩

theorem write_descriptors (host : Host) (bytes : Bytes) (differs : other ≠ id) :
    (host.write id bytes).2.descriptors[other]? = host.descriptors[other]? := by
  have put (node : NodeId) (content : Content) (start : Nat) (bytes : Bytes) :
      (host.put id node content start bytes).descriptors[other]? = host.descriptors[other]? :=
    List.getElem?_modify_ne _ _ (Ne.symm differs)
  unfold write
  split
  · rfl
  split
  · rfl
  · rw [writeFile, ← Descriptor.writeStart]
    split
    · exact put _ _ _ _
    split
    · rfl
    · exact put _ _ _ _
  · rfl
  · rfl
  · rfl
  · rfl

end Host

namespace FileTable

theorem update_setStream (table : FileTable) (id : FileId) (stream : Stream) {entry : Entry} :
    (table.setStream id stream).update id (fun _ => entry) = table.update id fun _ => entry := by
  rw [setStream, update, update, update, List.map_map]
  congr 1
  apply List.map_congr_left
  intro other _
  by_cases own : other.id = id <;> simp [own]

theorem find?_append_ne {table : FileTable} {entry : Entry} {other : FileId}
    (differs : other ≠ entry.id) :
    (table.append entry).find? other = table.find? other := by
  have unlike : (entry.id == other) = false := beq_eq_false_iff_ne.mpr (Ne.symm differs)
  rw [find?, append, List.find?_append, List.find?_singleton, unlike]
  exact Option.or_none

end FileTable

/-- The entry of a file that was opened by a name, and with which nothing was done since. -/
structure Entry.Anew (entry : Entry) (name : String) (mode : Mode) (descriptor : DescriptorId) : Prop where
  name : entry.name = name
  mode : entry.mode = mode
  descriptor : entry.stream.descriptor = descriptor
  direction : entry.stream.direction = .none
  input : entry.stream.ahead = [] ∧ entry.stream.pushback = []
  output : entry.stream.pending = []
  flags : entry.stream.eof = false ∧ entry.stream.failed = false

namespace Files

variable {files : Files} {given : List FileId} {id : FileId} {entry : Entry} {text path : String}
  {mode : Mode} {name : Option String}

theorem newEntry_anew (host : Host) (id : FileId) (descriptor : DescriptorId) (name : String)
    (mode : Mode) (buffered : Bool) :
    (newEntry host id descriptor name mode buffered).Anew name mode descriptor :=
  ⟨rfl, rfl, rfl, rfl, ⟨rfl, rfl⟩, rfl, ⟨rfl, rfl⟩⟩

def writeOut (files : Files) (entry : Entry) : Except Fault Unit × Host :=
  files.host.write entry.stream.descriptor entry.stream.pending

/-- Why a reopening is refused before anything is asked of the host, the first reason that applies.
The handles that were given out are `given`. -/
def reopenRefusal (files : Files) (given : List FileId) (id : FileId) (mode : String)
    (name : Option String) : Option FileError :=
  if id.isStandard then some (.standardStream id)
  else if (Mode.parse? mode).isNone then some (.badMode mode)
  else if files.table.isOpen id then none
  else if name.isNone then some (.nameRequired id)
  else if id ∉ given then some (.notOpen id)
  else if files.table.isFull then some .tooManyOpen
  else none

/-- A handle has its file by a name now, and the other files are as they were. -/
structure Reopened (before after : Files) (id : FileId) (name : String) (mode : Mode)
    (descriptor : DescriptorId) : Prop where
  anew : ∃ entry, after.table.find? id = some entry ∧ entry.Anew name mode descriptor
  others : ∀ other, other ≠ id → after.table.find? other = before.table.find? other
  lastId : after.table.lastId = before.table.lastId

section Open

variable (name)

/-- The output of an open file is written first, also where its mode does not ask for that: there is none
then. -/
theorem reopen_open (flushable : files.Flushable) (ordinary : id.isStandard = false)
    (valid : Mode.parse? text = some mode) (found : files.table.find? id = some entry) :
    reopen id text name files
      = (do
        run entry Transfer.flush
        swap id (name.getD entry.name) mode) files := by
  have parsed := parseMode_run text files
  rw [valid] at parsed
  unfold reopen
  rw [ordinary]
  simp only [Bool.false_eq_true, if_false]
  rw [Effect.bind_ok parsed, Effect.get_bind_run, found]
  dsimp only
  cases writing : entry.mode.writing with
  | true => rfl
  | false =>
      have idle := run_flush_nothing flushable found (flushable.writable id entry found writing)
      rw [Effect.bind_ok idle]
      rfl

/-- The new file is asked for on the host that took the output. -/
theorem reopen_written (flushable : files.Flushable) (ordinary : id.isStandard = false)
    (valid : Mode.parse? text = some mode) (found : files.table.find? id = some entry)
    (taken : (files.writeOut entry).1 = .ok ()) :
    reopen id text name files
      = match (files.writeOut entry).2.openName (name.getD entry.name) mode.request with
        | (.ok descriptor, host) => (.ok id, {
            table := files.table.update id fun _ =>
              newEntry host id descriptor (name.getD entry.name) mode true
            host := host })
        | (.error fault, host) => (.error (.host fault), {
            table := files.table.remove id
            host := host }) := by
  have flushed : run entry Transfer.flush files = (.ok (), {
      table := files.table.setStream id { entry.stream with pending := [] }
      host := (files.writeOut entry).2 }) := by
    have ran := Transfer.flush_taken { stream := entry.stream, host := files.host } taken
    rw [run, ran, FileTable.id_of_find? found]
    rfl
  rw [reopen_open name flushable ordinary valid found, Effect.bind_ok flushed, swap_run]
  rcases (files.writeOut entry).2.openName (name.getD entry.name) mode.request with ⟨answer, host⟩
  cases answer with
  | ok descriptor => simp only [FileTable.update_setStream]
  | error fault => simp only [FileTable.remove_setStream]

/-- Output that the host refuses fails the reopening, and nothing is opened. -/
theorem reopen_unwritten {fault : Fault} (flushable : files.Flushable) (ordinary : id.isStandard = false)
    (valid : Mode.parse? text = some mode) (found : files.table.find? id = some entry)
    (refused : (files.writeOut entry).1 = .error fault) :
    reopen id text name files = (.error (.host fault), {
      table := files.table.setStream id { entry.stream with pending := [], failed := true }
      host := (files.writeOut entry).2 }) := by
  have flushed : run entry Transfer.flush files = (.error (.host fault), {
      table := files.table.setStream id { entry.stream with pending := [], failed := true }
      host := (files.writeOut entry).2 }) := by
    have ran := Transfer.flush_refused { stream := entry.stream, host := files.host } refused
    rw [run, ran, FileTable.id_of_find? found]
    rfl
  rw [reopen_open name flushable ordinary valid found, Effect.bind_error flushed]

end Open

theorem reopen_standard (standard : id.isStandard = true) :
    reopen id text name files = (.error (.standardStream id), files) := by
  unfold reopen
  rw [if_pos standard]
  rfl

theorem reopen_misread (ordinary : id.isStandard = false) (bad : Mode.parse? text = none) :
    reopen id text name files = (.error (.badMode text), files) := by
  have parsed := parseMode_run text files
  rw [bad] at parsed
  unfold reopen
  rw [ordinary]
  exact Effect.bind_error parsed

section Closed

variable (ordinary : id.isStandard = false) (valid : Mode.parse? text = some mode)
  (missing : files.table.find? id = none)

include ordinary valid missing

/-- A closed file is put back by a name, if it was open once. -/
theorem reopen_missing :
    reopen id text name files
      = (do
        let some path := name | throw (.nameRequired id)
        if (← get).table.lastId < id.number then throw (.notOpen id)
        putBack id path mode : FileM FileId) files := by
  have parsed := parseMode_run text files
  rw [valid] at parsed
  unfold reopen
  rw [ordinary]
  simp only [Bool.false_eq_true, if_false]
  rw [Effect.bind_ok parsed, Effect.get_bind_run, missing]
  rfl

theorem reopen_nameless : reopen id text none files = (.error (.nameRequired id), files) :=
  reopen_missing ordinary valid missing

theorem reopen_unissued (path : String) (later : files.table.lastId < id.number) :
    reopen id text (some path) files = (.error (.notOpen id), files) := by
  rw [reopen_missing ordinary valid missing]
  dsimp only
  rw [Effect.get_bind_run, if_pos later]
  rfl

variable (issued : id.number ≤ files.table.lastId)

include issued

theorem reopen_issued (path : String) :
    reopen id text (some path) files = putBack id path mode files := by
  rw [reopen_missing ordinary valid missing]
  dsimp only
  rw [Effect.get_bind_run, if_neg (Nat.not_lt.mpr issued)]

theorem reopen_full (path : String) (full : files.table.isFull = true) :
    reopen id text (some path) files = (.error .tooManyOpen, files) := by
  have crowded := requireRoom_run files
  rw [full] at crowded
  rw [reopen_issued ordinary valid missing issued]
  exact Effect.bind_error crowded

/-- A closed file has its new one behind all others, or stays closed. -/
theorem reopen_closed (path : String) (room : files.table.isFull = false) :
    reopen id text (some path) files
      = match files.host.openName path mode.request with
        | (.ok descriptor, host) => (.ok id, {
            table := files.table.append (newEntry host id descriptor path mode true)
            host := host })
        | (.error fault, _) => (.error (.host fault), files) := by
  have roomy := requireRoom_run files
  rw [room] at roomy
  rw [reopen_issued ordinary valid missing issued, putBack, Effect.bind_ok roomy]
  have ran := request_run (fun host => host.openName path mode.request) files
  rcases asked : files.host.openName path mode.request with ⟨answer, host⟩
  rw [asked] at ran
  cases answer with
  | error fault =>
      obtain rfl := Host.openName_refused asked
      exact Effect.bind_error ran
  | ok descriptor => exact Effect.bind_ok ran

end Closed

theorem reopen_refused {error : FileError} (issued : ∀ id, id ∈ given ↔ id.number ≤ files.table.lastId)
    (refused : files.reopenRefusal given id text name = some error) :
    reopen id text name files = (.error error, files) := by
  unfold reopenRefusal at refused
  split at refused
  · rename_i standard
    cases refused
    exact reopen_standard standard
  rename_i ordinary
  rw [Bool.not_eq_true] at ordinary
  split at refused
  · rename_i bad
    cases refused
    exact reopen_misread ordinary (Option.isNone_iff_eq_none.mp bad)
  rename_i read
  rw [Option.isNone_iff_eq_none] at read
  obtain ⟨mode, valid⟩ := Option.ne_none_iff_exists'.mp read
  split at refused
  · cases refused
  rename_i closed
  have missing : files.table.find? id = none := by simpa [FileTable.isOpen] using closed
  cases name with
  | none =>
      cases refused
      exact reopen_nameless ordinary valid missing
  | some path =>
      simp only [Option.isNone_some, Bool.false_eq_true, if_false] at refused
      split at refused
      · rename_i unknown
        cases refused
        rw [issued, Nat.not_le] at unknown
        exact reopen_unissued ordinary valid missing path unknown
      rename_i known
      rw [not_not, issued] at known
      split at refused
      · rename_i full
        cases refused
        exact reopen_full ordinary valid missing known path full
      · cases refused

/-- Where a reopening is not refused, the file is open, or it was closed and there are a name and room
for it. -/
theorem reopenRefusal_none (passed : files.reopenRefusal given id text name = none) :
    id.isStandard = false ∧ (∃ mode, Mode.parse? text = some mode)
      ∧ (files.table.find? id = none →
        ∃ path, name = some path ∧ id ∈ given ∧ files.table.isFull = false) := by
  unfold reopenRefusal at passed
  split at passed
  · cases passed
  rename_i ordinary
  split at passed
  · cases passed
  rename_i valid
  rw [Option.isNone_iff_eq_none] at valid
  refine ⟨by simpa using ordinary, Option.ne_none_iff_exists'.mp valid, fun missing => ?_⟩
  rw [FileTable.isOpen, missing] at passed
  cases name with
  | none => cases passed
  | some path =>
      simp only [Option.isSome_none, Option.isNone_some, Bool.false_eq_true, if_false] at passed
      split at passed
      · cases passed
      rename_i known
      split at passed
      · cases passed
      rename_i room
      exact ⟨path, rfl, not_not.mp known, by simpa using room⟩

end Files

/-- What the reopening of an open file answers and leaves, where the host takes the output that waits in
it. -/
structure Files.Swaps (files : Files) (id : FileId) (entry : Entry) (path : String) (mode : Mode)
    (answer : Except FileError FileId) (after : Files) : Prop where
  /-- The new file is asked for on the host that has the output. -/
  granted : ∀ descriptor host,
    (files.writeOut entry).2.openName path mode.request = (.ok descriptor, host) →
    answer = .ok id ∧ after.host = host ∧ after.table.ids = files.table.ids
      ∧ files.Reopened after id path mode descriptor
  refused : ∀ fault host,
    (files.writeOut entry).2.openName path mode.request = (.error fault, host) →
    answer = .error (.host fault) ∧ after.table = files.table.remove id
      ∧ after.host = (files.writeOut entry).2
  /-- All that was written is on the old file then, and is lost only where the new request empties it. -/
  written : ∀ descriptor content bytes,
    files.host.open? entry.stream.descriptor = some (descriptor, .file content) →
    files.contentOf? id = some bytes →
    (files.writeOut entry).2.Stores descriptor.node bytes
      ∧ (after.host.Stores descriptor.node bytes
        ∨ mode.request.truncate = true
          ∧ ∃ new, after.table.find? id = some new ∧ new.node = some descriptor.node)
  /-- Other descriptors stay where they are. -/
  descriptors : ∀ (other : DescriptorId) (descriptor : Descriptor), other ≠ entry.stream.descriptor →
    files.host.descriptors[other]? = some descriptor → after.host.descriptors[other]? = some descriptor

/-- What the reopening of a closed file answers and leaves. -/
structure Files.Reattaches (files : Files) (id : FileId) (path : String) (mode : Mode)
    (answer : Except FileError FileId) (after : Files) : Prop where
  granted : ∀ descriptor host, files.host.openName path mode.request = (.ok descriptor, host) →
    answer = .ok id ∧ after.host = host ∧ after.table.ids = files.table.ids ++ [id]
      ∧ files.Reopened after id path mode descriptor
  refused : ∀ fault host, files.host.openName path mode.request = (.error fault, host) →
    answer = .error (.host fault) ∧ after = files
  descriptors : ∀ (other : DescriptorId) (descriptor : Descriptor),
    files.host.descriptors[other]? = some descriptor → after.host.descriptors[other]? = some descriptor

namespace Files

variable {files : Files} {id : FileId} {entry : Entry} {text path : String} {mode : Mode}
  {name : Option String}

theorem update_reopened (found : files.table.find? id = some entry) (host : Host)
    (descriptor : DescriptorId) (path : String) (mode : Mode) :
    files.Reopened {
      table := files.table.update id fun _ => newEntry host id descriptor path mode true
      host := host } id path mode descriptor where
  anew := ⟨_, FileTable.find?_update found rfl, newEntry_anew host id descriptor path mode true⟩
  others := fun other differs =>
    (FileTable.find?_update_eq files.table id other fun _ _ => rfl).trans (if_neg differs)
  lastId := rfl

theorem append_reopened (missing : files.table.find? id = none) (host : Host) (descriptor : DescriptorId)
    (path : String) (mode : Mode) :
    files.Reopened {
      table := files.table.append (newEntry host id descriptor path mode true)
      host := host } id path mode descriptor where
  anew := by
    have unused : files.table.find? (newEntry host id descriptor path mode true).id = none := missing
    exact ⟨_, FileTable.find?_append unused, newEntry_anew host id descriptor path mode true⟩
  others := fun _ differs => FileTable.find?_append_ne differs
  lastId := rfl

/-- The file has all that was written to it when the host took what waited. -/
theorem writeOut_stores {descriptor : Descriptor} {content : Content} {bytes : Bytes}
    (found : files.table.find? id = some entry)
    (opened : files.host.open? entry.stream.descriptor = some (descriptor, .file content))
    (taken : (files.writeOut entry).1 = .ok ()) (holds : files.contentOf? id = some bytes) :
    (files.writeOut entry).2.Stores descriptor.node bytes := by
  rw [contentOf?_file found opened] at holds
  cases holds
  exact Host.write_stores opened taken

theorem reopen_swaps (flushable : files.Flushable) (ordinary : id.isStandard = false)
    (valid : Mode.parse? text = some mode) (found : files.table.find? id = some entry)
    (taken : (files.writeOut entry).1 = .ok ()) :
    files.Swaps id entry (name.getD entry.name) mode (reopen id text name files).1
      (reopen id text name files).2 := by
  have ran := reopen_written name flushable ordinary valid found taken
  have moved (other : DescriptorId) (differs : other ≠ entry.stream.descriptor) :
      (files.writeOut entry).2.descriptors[other]? = files.host.descriptors[other]? :=
    Host.write_descriptors files.host _ differs
  rcases asked : (files.writeOut entry).2.openName (name.getD entry.name) mode.request with ⟨answer, host⟩
  rw [asked] at ran
  cases answer with
  | error fault =>
      obtain rfl := Host.openName_refused asked
      rw [ran]
      refine ⟨fun descriptor host granted => ?_, fun other host refused => ?_, ?_, ?_⟩
      · cases asked.symm.trans granted
      · cases asked.symm.trans refused
        exact ⟨rfl, rfl, rfl⟩
      · intro descriptor content bytes opened holds
        have stores := writeOut_stores found opened taken holds
        exact ⟨stores, .inl stores⟩
      · intro other descriptor differs there
        exact (moved other differs).trans there
  | ok descriptor =>
      obtain ⟨node, granted⟩ := Host.openName_granted asked
      rw [ran]
      refine ⟨fun other host again => ?_, fun fault host refused => ?_, ?_, ?_⟩
      · cases asked.symm.trans again
        refine ⟨rfl, rfl, ?_, update_reopened found _ _ _ _⟩
        exact (Files.update_replaced (Steady.refl files) (newEntry host id descriptor _ mode true)).ids
      · cases asked.symm.trans refused
      · intro old content bytes opened holds
        have stores := writeOut_stores found opened taken holds
        refine ⟨stores, ?_⟩
        by_cases same : old.node = node ∧ mode.request.truncate = true
        · obtain ⟨rfl, truncates⟩ := same
          exact .inr ⟨truncates, _, FileTable.find?_update found rfl, newEntry_node granted _ _ _⟩
        · refine .inl (granted.stores stores fun own => ?_)
          simpa [own] using same
      · intro other former differs there
        exact granted.descriptor ((moved other differs).trans there)

theorem reopen_reattaches (ordinary : id.isStandard = false) (valid : Mode.parse? text = some mode)
    (missing : files.table.find? id = none) (issued : id.number ≤ files.table.lastId)
    (room : files.table.isFull = false) :
    files.Reattaches id path mode (reopen id text (some path) files).1
      (reopen id text (some path) files).2 := by
  have ran := reopen_closed ordinary valid missing issued path room
  rcases asked : files.host.openName path mode.request with ⟨answer, host⟩
  rw [asked] at ran
  cases answer with
  | error fault =>
      rw [ran]
      refine ⟨fun descriptor host granted => ?_, fun other host refused => ?_, fun _ _ there => there⟩
      · cases asked.symm.trans granted
      · cases asked.symm.trans refused
        exact ⟨rfl, rfl⟩
  | ok descriptor =>
      obtain ⟨node, granted⟩ := Host.openName_granted asked
      rw [ran]
      refine ⟨fun other host again => ?_, fun fault host refused => ?_, fun other former there => ?_⟩
      · cases asked.symm.trans again
        refine ⟨rfl, rfl, ?_, append_reopened missing _ _ _ _⟩
        exact List.map_append
      · cases asked.symm.trans refused
      · exact granted.descriptor there

end Files

/-- The handles of a run, those of the configuration's files included, are those up to the last one. -/
theorem FileCall.given_iff (host : Host) (maxFiles readChunk : Nat) (adopt : Bool) (calls : List FileCall)
    (id : FileId) :
    let start := Files.new host maxFiles readChunk adopt
    id ∈ start.table.ids ++ handlesAll calls start ↔ id.number ≤ (afterAll calls start).table.lastId := by
  intro start
  have numbers := given_numbers host maxFiles readChunk adopt calls
  rw [← Nat.lt_succ_iff, ← List.mem_range, ← numbers, List.mem_map]
  constructor
  · exact fun listed => ⟨id, listed, rfl⟩
  · rintro ⟨⟨number⟩, listed, rfl⟩
    exact listed

/-- In every state of every run a reopening is refused where it has to be, for the first reason that
applies, and then nothing changes. Else an open file has its output on its old file before the new one is
asked for; it has the new one in its place, or is gone from the table. A closed file that was open once
has the new one behind all others, or nothing changes. -/
theorem reopen_over_runs (host : Host) (maxFiles readChunk : Nat) (adopt : Bool) (calls : List FileCall)
    (id : FileId) (text : String) (name : Option String) :
    let start := Files.new host maxFiles readChunk adopt
    let files := FileCall.afterAll calls start
    let given := start.table.ids ++ FileCall.handlesAll calls start
    let ran := Files.reopen id text name files
    (∀ error, files.reopenRefusal given id text name = some error → ran = (.error error, files))
      ∧ (files.reopenRefusal given id text name = none → ∃ mode, Mode.parse? text = some mode
        ∧ (∀ entry, files.table.find? id = some entry →
          ((files.writeOut entry).1 = .ok () →
            files.Swaps id entry (name.getD entry.name) mode ran.1 ran.2)
          ∧ ∀ fault, (files.writeOut entry).1 = .error fault → ran = (.error (.host fault), {
            table := files.table.setStream id { entry.stream with pending := [], failed := true }
            host := (files.writeOut entry).2 }))
        ∧ (files.table.find? id = none → ∃ path, name = some path
          ∧ files.Reattaches id path mode ran.1 ran.2)) := by
  intro start files given ran
  have flushable : files.Flushable := Files.flushable_over_runs host maxFiles readChunk adopt calls
  have issued : ∀ id : FileId, id ∈ given ↔ id.number ≤ files.table.lastId :=
    FileCall.given_iff host maxFiles readChunk adopt calls
  refine ⟨fun error refused => Files.reopen_refused issued refused, fun passed => ?_⟩
  obtain ⟨ordinary, ⟨mode, valid⟩, closed⟩ := Files.reopenRefusal_none passed
  refine ⟨mode, valid, fun entry found => ⟨?_, ?_⟩, fun missing => ?_⟩
  · exact Files.reopen_swaps flushable ordinary valid found
  · exact fun fault => Files.reopen_unwritten name flushable ordinary valid found
  · obtain ⟨path, rfl, listed, room⟩ := closed missing
    exact ⟨path, rfl, Files.reopen_reattaches ordinary valid missing ((issued id).mp listed) room⟩

namespace ReopenedSample

def calls : List FileCall :=
  [.openFile "a" "w", .ask (.write ⟨3⟩ [0x78, 0x79, 0x7A])]

def before : Files := FileCall.afterAll calls (Files.new OneFile.host 20 1024 false)

def entry : Entry where
  id := ⟨3⟩
  name := "a"
  mode := { base := .write, binary := false, update := false }
  node := some 10
  stream := { Stream.new 3 true with pending := [0x78, 0x79, 0x7A], direction := .write }

/-- The bytes are on the file before it is opened to be read. -/
theorem written_file_is_reopened :
    (Files.reopen ⟨3⟩ "r" none before).1 = .ok ⟨3⟩
      ∧ (Files.reopen ⟨3⟩ "r" none before).2.host.Stores 10 [0x78, 0x79, 0x7A]
      ∧ (Files.reopen ⟨3⟩ "r" none before).2.table.lastId = 3 := by
  obtain ⟨_, passes⟩ := reopen_over_runs OneFile.host 20 1024 false calls ⟨3⟩ "r" none
  obtain ⟨mode, valid, opens, _⟩ := passes (by cbv)
  have reading : Mode.parse? "r" = some { base := .read, binary := false, update := false } := by cbv
  rw [reading] at valid
  cases valid
  have found : before.table.find? ⟨3⟩ = some entry := by cbv
  have taken : (before.writeOut entry).1 = .ok () := by cbv
  have opened : before.host.open? entry.stream.descriptor
      = some ({ node := 10, offset := 0, appends := false }, .file Content.empty) := by cbv
  have holds : before.contentOf? ⟨3⟩ = some [0x78, 0x79, 0x7A] := by cbv
  have grants : ((before.writeOut entry).2.openName "a"
      (Mode.request { base := .read, binary := false, update := false })).1 = .ok 4 := by cbv
  have last : before.table.lastId = 3 := by cbv
  have swaps := (opens entry found).1 taken
  obtain ⟨answered, _, _, reopened⟩ := swaps.granted 4 _ (Prod.ext grants rfl)
  rcases (swaps.written _ _ _ opened holds).2 with stores | ⟨truncates, _⟩
  · exact ⟨answered, stores, reopened.lastId.trans last⟩
  · cases truncates

end ReopenedSample

end Calculator
