import Calculator.Proofs.Reader

/-!
# The file table is a table of plain files

Handles whose files nothing else touches are followed through the table. Every request on one of them
is answered as the plain files answer it, and changes its own file only.
-/

namespace Calculator

namespace FileTable

variable {table : FileTable} {id other : FileId} {entry : Entry}

theorem id_of_find? (found : table.find? id = some entry) : entry.id = id := by
  simpa using List.find?_some found

theorem mem_of_find? (found : table.find? id = some entry) : entry ∈ table.entries :=
  List.mem_of_find?_eq_some found

theorem find?_of_mem (distinct : table.ids.Nodup) (present : entry ∈ table.entries) :
    table.find? entry.id = some entry := by
  rw [find?]
  rw [ids] at distinct
  revert distinct present
  induction table.entries with
  | nil => simp
  | cons first rest ih =>
      intro distinct present
      rw [List.map_cons, List.nodup_cons] at distinct
      rcases List.mem_cons.mp present with rfl | later
      · simp
      · have differs : first.id ≠ entry.id := by
          intro same
          exact distinct.1 (same ▸ List.mem_map_of_mem later)
        rw [List.find?_cons_of_neg (by simpa using differs)]
        exact ih distinct.2 later

theorem find?_update_eq (table : FileTable) (id other : FileId) {change : Entry → Entry}
    (own : ∀ entry, entry.id = id → (change entry).id = id) :
    (table.update id change).find? other
      = if other = id then (table.find? id).map change else table.find? other := by
  have kept : (fun entry : Entry => entry.id == other) ∘
      (fun entry => if entry.id == id then change entry else entry)
        = fun entry => entry.id == other := by
    funext entry
    by_cases same : entry.id = id <;> simp [same, own]
  have mapped : (table.update id change).find? other
      = (table.find? other).map fun entry => if entry.id == id then change entry else entry := by
    rw [find?, update, List.find?_map, kept]
    rfl
  rw [mapped]
  by_cases same : other = id
  · rw [if_pos same, same]
    apply Option.map_congr
    intro entry found
    simp [id_of_find? found]
  · rw [if_neg same]
    cases found : table.find? other with
    | none => rfl
    | some entry => simp [id_of_find? found, same]

theorem find?_setStream (table : FileTable) (id other : FileId) (stream : Stream) :
    (table.setStream id stream).find? other
      = if other = id then (table.find? id).map fun entry => { entry with stream }
        else table.find? other :=
  find?_update_eq table id other fun _ own => own

theorem find?_setStream_self (found : table.find? id = some entry) (stream : Stream) :
    (table.setStream id stream).find? id = some { entry with stream } := by
  rw [find?_setStream, if_pos rfl, found]
  rfl

theorem find?_setStream_ne (differs : other ≠ id) (stream : Stream) :
    (table.setStream id stream).find? other = table.find? other := by
  rw [find?_setStream, if_neg differs]

theorem ids_setStream (table : FileTable) (id : FileId) (stream : Stream) :
    (table.setStream id stream).ids = table.ids := by
  rw [ids, setStream, update, List.map_map]
  apply List.map_congr_left
  intro entry _
  by_cases own : entry.id = id <;> simp [own]

end FileTable

/-- No file but that of `id` is open on `node`. -/
def Files.Alone (files : Files) (id : FileId) (node : NodeId) : Prop :=
  ∀ other ∈ files.table.entries, other.id ≠ id →
    files.host.node? other.stream.descriptor ≠ some node

/-- The entry shows a plain one, whose file is kept in `node` and open nowhere else. -/
structure Files.Shows (files : Files) (node : NodeId) (entry : Entry) (shown : PlainEntry) : Prop where
  mode : shown.mode = entry.mode
  outward : shown.file.direction = .write → shown.mode.writing = true
  mirrors : Channel.Mirrors { stream := entry.stream, host := files.host } node shown.file
  alone : files.Alone entry.id node

/-- Under each of `handles` the table shows what the plain files have there. The file of a handle is
kept in the node that `home` gives it. -/
structure Files.Mirrors (files : Files) (home : FileId → NodeId) (handles : List FileId)
    (plain : PlainFiles) : Prop where
  chunk : 0 < files.table.readChunk
  distinct : files.table.ids.Nodup
  closed : ∀ id ∈ handles, files.table.find? id = none → plain id = none
  shows : ∀ id ∈ handles, ∀ entry, files.table.find? id = some entry →
    ∃ shown, plain id = some shown ∧ files.Shows (home id) entry shown

/-- The program answers `answer`, after which the table shows `shown`. -/
def FileM.Gives {α : Type} (program : FileM α) (files : Files) (home : FileId → NodeId)
    (handles : List FileId) (answer : Except FileError α) (shown : PlainFiles) : Prop :=
  ∃ after, program files = (answer, after) ∧ after.Mirrors home handles shown

namespace Files

variable {files : Files} {home : FileId → NodeId} {handles : List FileId} {plain : PlainFiles}
  {id : FileId} {entry : Entry} {shown : PlainEntry} {α : Type}

theorem Shows.node? {node : NodeId} (shows : files.Shows node entry shown) :
    files.host.node? entry.stream.descriptor = some node := by
  obtain ⟨offset, disk, holds, _⟩ := shows.mirrors
  exact holds.node?

theorem Shows.node_ne {node own : NodeId} {other : Entry} {plainOther : PlainEntry}
    (shows : files.Shows node entry shown) (shownOther : files.Shows own other plainOther)
    (present : other ∈ files.table.entries) (differs : other.id ≠ entry.id) : node ≠ own := by
  intro same
  apply shows.alone other present differs
  rw [shownOther.node?, same]

theorem Shows.elsewhere {after : Files} {node : NodeId} (shows : files.Shows node entry shown)
    (same : Host.SameAt node files.host after.host) (alone : after.Alone entry.id node) :
    after.Shows node entry shown where
  mode := shows.mode
  outward := shows.outward
  mirrors := by
    obtain ⟨offset, disk, holds, mirrors⟩ := shows.mirrors
    exact ⟨offset, disk, holds.sameAt same, mirrors⟩
  alone := alone

/-- A file stays alone when its own stream is changed, or one that is on another node. -/
theorem Alone.setStream {host : Host} {changed : FileId} {stream : Stream} {node : NodeId}
    (alone : files.Alone id node)
    (nodes : ∀ descriptor, host.node? descriptor = files.host.node? descriptor)
    (apart : changed ≠ id → files.host.node? stream.descriptor ≠ some node) :
    Alone { table := files.table.setStream changed stream, host } id node := by
  intro other present differs
  obtain ⟨former, before, rfl⟩ := List.mem_map.mp present
  rw [nodes]
  by_cases own : former.id = changed
  · have elsewhere : changed ≠ id := by simpa [own] using differs
    simpa [own] using apart elsewhere
  · have kept : former.id ≠ id := by simpa [own] using differs
    simpa [own] using alone former before kept

theorem run_gives {transfer : Transfer α} {result : α} {file : PlainFile}
    (mirrors : files.Mirrors home handles plain) (found : files.table.find? id = some entry)
    (shows : files.Shows (home id) entry shown)
    (yields : transfer.Yields { stream := entry.stream, host := files.host } (home id) result file)
    (outward : file.direction = .write → shown.mode.writing = true) :
    FileM.Gives (run entry transfer) files home handles (.ok result)
      (plain.set id { shown with file }) := by
  obtain ⟨channel, ran, reached, descriptor, elsewhere⟩ := yields
  have own := FileTable.id_of_find? found
  have nodes : ∀ other, channel.host.node? other = files.host.node? other :=
    (elsewhere (home id + 1) (Nat.succ_ne_self _)).node?
  refine ⟨{ table := files.table.setStream id channel.stream, host := channel.host }, ?_, ?_⟩
  · simp only [run, ran, own]
    rfl
  · constructor
    case chunk => exact mirrors.chunk
    case distinct =>
      rw [FileTable.ids_setStream]
      exact mirrors.distinct
    case closed =>
      intro other tracked missing
      by_cases same : other = id
      · rw [same, FileTable.find?_setStream_self found] at missing
        cases missing
      · rw [FileTable.find?_setStream_ne same] at missing
        rw [PlainFiles.set, if_neg same]
        exact mirrors.closed other tracked missing
    case shows =>
      intro other tracked present seen
      by_cases same : other = id
      · rw [same, FileTable.find?_setStream_self found] at seen
        cases seen
        subst same
        exact ⟨{ shown with file }, by rw [PlainFiles.set, if_pos rfl], shows.mode, outward, reached,
          shows.alone.setStream nodes (absurd own.symm)⟩
      · rw [FileTable.find?_setStream_ne same] at seen
        obtain ⟨plainOther, visible, shownOther⟩ := mirrors.shows other tracked present seen
        have apart : entry.id ≠ present.id := by
          rw [own, FileTable.id_of_find? seen]
          exact Ne.symm same
        have away := shownOther.node_ne shows (FileTable.mem_of_find? found) apart
        have clear : files.host.node? channel.stream.descriptor ≠ some (home other) := by
          rw [descriptor, shows.node?]
          simpa using Ne.symm away
        exact ⟨plainOther, by rw [PlainFiles.set, if_neg same, visible],
          shownOther.elsewhere (elsewhere _ away) (shownOther.alone.setStream nodes fun _ => clear)⟩

theorem Mirrors.find (mirrors : files.Mirrors home handles plain) (tracked : id ∈ handles)
    (visible : plain id = some shown) :
    ∃ entry, files.table.find? id = some entry ∧ files.Shows (home id) entry shown := by
  cases found : files.table.find? id with
  | none =>
      rw [mirrors.closed id tracked found] at visible
      cases visible
  | some entry =>
      obtain ⟨same, present, shows⟩ := mirrors.shows id tracked entry found
      rw [visible] at present
      cases present
      exact ⟨entry, rfl, shows⟩

theorem Mirrors.missing (mirrors : files.Mirrors home handles plain) (tracked : id ∈ handles)
    (invisible : plain id = none) : files.table.find? id = none := by
  cases found : files.table.find? id with
  | none => rfl
  | some entry =>
      obtain ⟨shown, visible, _⟩ := mirrors.shows id tracked entry found
      rw [invisible] at visible
      cases visible

theorem entry_missing (missing : files.table.find? id = none) :
    Files.entry id files = (.error (.notOpen id), files) := by
  unfold Files.entry
  rw [Effect.get_bind_run, missing]
  rfl

theorem entry_found (found : files.table.find? id = some entry) :
    Files.entry id files = (.ok entry, files) := by
  unfold Files.entry
  rw [Effect.get_bind_run, found]
  rfl

theorem readableEntry_found (found : files.table.find? id = some entry)
    (reading : entry.mode.reading = true) : readableEntry id files = (.ok entry, files) := by
  unfold readableEntry
  rw [Effect.bind_ok (entry_found found), if_pos reading]
  rfl

theorem readableEntry_refused (found : files.table.find? id = some entry)
    (unreadable : entry.mode.reading = false) :
    readableEntry id files = (.error (.notReadable id), files) := by
  unfold readableEntry
  rw [Effect.bind_ok (entry_found found), if_neg (by simp [unreadable])]
  rfl

theorem writableEntry_found (found : files.table.find? id = some entry)
    (writing : entry.mode.writing = true) : writableEntry id files = (.ok entry, files) := by
  unfold writableEntry
  rw [Effect.bind_ok (entry_found found), if_pos writing]
  rfl

theorem writableEntry_refused (found : files.table.find? id = some entry)
    (unwritable : entry.mode.writing = false) :
    writableEntry id files = (.error (.notWritable id), files) := by
  unfold writableEntry
  rw [Effect.bind_ok (entry_found found), if_neg (by simp [unwritable])]
  rfl

end Files

namespace FileM.Gives

variable {files : Files} {home : FileId → NodeId} {handles : List FileId} {middle final : PlainFiles}
  {α β : Type} {program : FileM α} {result : α}

theorem bind {next : α → FileM β} {answer : Except FileError β}
    (first : program.Gives files home handles (.ok result) middle)
    (second : ∀ after : Files, after.Mirrors home handles middle →
      (next result).Gives after home handles answer final) :
    FileM.Gives (program >>= next) files home handles answer final := by
  obtain ⟨between, ran, mirrors⟩ := first
  obtain ⟨after, continued, reached⟩ := second between mirrors
  exact ⟨after, (Effect.bind_ok ran).trans continued, reached⟩

theorem pure (mirrors : files.Mirrors home handles final) (result : α) :
    FileM.Gives (Pure.pure result) files home handles (.ok result) final :=
  ⟨files, rfl, mirrors⟩

theorem map (first : program.Gives files home handles (.ok result) final) (answer : α → β) :
    FileM.Gives (do return answer (← program)) files home handles (.ok (answer result)) final :=
  first.bind fun _ reached => pure reached _

end FileM.Gives

namespace PlainFiles

theorem set_of_visible {plain : PlainFiles} {id : FileId} {shown : PlainEntry}
    (visible : plain id = some shown) : plain.set id shown = plain := by
  funext other
  by_cases same : other = id
  · rw [set, if_pos same, same, visible]
  · rw [set, if_neg same]

theorem set_self (plain : PlainFiles) (id : FileId) (shown : PlainEntry) :
    plain.set id shown id = some shown := if_pos rfl

theorem set_set (plain : PlainFiles) (id : FileId) (first second : PlainEntry) :
    (plain.set id first).set id second = plain.set id second := by
  funext other
  by_cases same : other = id <;> simp [set, same]

end PlainFiles

namespace Files

variable {files : Files} {home : FileId → NodeId} {handles : List FileId} {plain : PlainFiles}
  {id : FileId} {shown : PlainEntry} {α : Type}

theorem lookup_run_gives {lookup : FileM Entry} {transfer : Transfer α} {result : α}
    {file : PlainFile} (mirrors : files.Mirrors home handles plain) (tracked : id ∈ handles)
    (visible : plain id = some shown)
    (looks : ∀ entry, files.table.find? id = some entry → shown.mode = entry.mode →
      lookup files = (.ok entry, files))
    (outward : file.direction = .write → shown.mode.writing = true)
    (yields : ∀ channel : Channel, channel.Mirrors (home id) shown.file →
      transfer.Yields channel (home id) result file) :
    FileM.Gives (lookup >>= fun entry => run entry transfer) files home handles (.ok result)
      (plain.set id { shown with file }) := by
  obtain ⟨entry, found, shows⟩ := mirrors.find tracked visible
  obtain ⟨after, ran, reached⟩ := run_gives mirrors found shows (yields _ shows.mirrors) outward
  exact ⟨after, (Effect.bind_ok (looks entry found shows.mode)).trans ran, reached⟩

section Operations

variable (mirrors : files.Mirrors home handles plain) (tracked : id ∈ handles)
  (visible : plain id = some shown)

include mirrors tracked visible

theorem entry_run_gives {transfer : Transfer α} {result : α} {file : PlainFile}
    (outward : file.direction = .write → shown.mode.writing = true)
    (yields : ∀ channel : Channel, channel.Mirrors (home id) shown.file →
      transfer.Yields channel (home id) result file) :
    FileM.Gives (entry id >>= fun entry => run entry transfer) files home handles (.ok result)
      (plain.set id { shown with file }) :=
  lookup_run_gives mirrors tracked visible (fun _ found _ => entry_found found) outward yields

theorem readableEntry_run_gives {transfer : Transfer α} {result : α} {file : PlainFile}
    (reading : shown.mode.reading = true) (inward : file.direction = .read)
    (yields : ∀ channel : Channel, channel.Mirrors (home id) shown.file →
      transfer.Yields channel (home id) result file) :
    FileM.Gives (readableEntry id >>= fun entry => run entry transfer) files home handles
      (.ok result) (plain.set id { shown with file }) := by
  apply lookup_run_gives mirrors tracked visible _ _ yields
  · intro entry found mode
    exact readableEntry_found found (mode ▸ reading)
  · rw [inward]
    intro writes
    cases writes

theorem readChar_gives (reading : shown.mode.reading = true) :
    (readChar id).Gives files home handles (.ok (shown.file.toward .read).next.1)
      (plain.set id { shown with file := (shown.file.toward .read).next.2 }) := by
  apply readableEntry_run_gives mirrors tracked visible reading
  · exact PlainFile.next_direction _
  · intro channel shows
    apply (Transfer.prepareRead_yields shows).bind
    intro ready inward
    exact Transfer.readByte_yields inward rfl

theorem readBytes_gives (reading : shown.mode.reading = true) (count : Nat) :
    (readBytes id count).Gives files home handles (.ok ((shown.file.toward .read).take count).1)
      (plain.set id { shown with file := ((shown.file.toward .read).take count).2 }) := by
  apply readableEntry_run_gives mirrors tracked visible reading
  · exact PlainFile.take_direction _ count
  · intro channel shows
    apply (Transfer.prepareRead_yields shows).bind
    intro ready inward
    exact Transfer.readBytes_yields inward rfl count

theorem unreadChar_gives (reading : shown.mode.reading = true) (byte : UInt8)
    (inside : 0 < shown.file.tell) :
    (unreadChar id byte).Gives files home handles
      (if shown.file.direction = .read then .ok () else .error (.notReading id))
      (if shown.file.direction = .read then
        plain.set id { shown with file := shown.file.push byte } else plain) := by
  obtain ⟨entry, found, shows⟩ := mirrors.find tracked visible
  obtain ⟨offset, disk, holds, mirrored⟩ := shows.mirrors
  have looked := readableEntry_found found (shows.mode ▸ reading)
  unfold unreadChar
  by_cases inward : shown.file.direction = .read
  · have same : entry.stream.direction = .read := mirrored.direction.symm.trans inward
    obtain ⟨after, ran, reached⟩ := run_gives mirrors found shows
      (Transfer.unread_yields shows.mirrors inward inside byte) (by simp [PlainFile.push, inward])
    rw [if_pos inward, if_pos inward]
    refine ⟨after, ?_, reached⟩
    rw [Effect.bind_ok looked, same]
    exact ran
  · have other : entry.stream.direction ≠ .read := mirrored.direction ▸ inward
    rw [if_neg inward, if_neg inward]
    refine ⟨files, ?_, mirrors⟩
    rw [Effect.bind_ok looked, if_pos (by simpa using other)]
    rfl

theorem readText_gives (reading : shown.mode.reading = true) (options : ReadOptions) :
    (readText id options).Gives files home handles
      (.ok ((shown.file.toward .read).readText options).1)
      (plain.set id { shown with file := ((shown.file.toward .read).readText options).2 }) := by
  obtain ⟨entry, found, shows⟩ := mirrors.find tracked visible
  have looked := readableEntry_found found (shows.mode ▸ reading)
  obtain ⟨after, ran, reached⟩ := run_gives mirrors found shows
    (Transfer.readText_yields shows.mirrors options mirrors.chunk)
    (by simp [PlainFile.readText_direction, PlainFile.toward])
  refine ⟨after, ?_, reached⟩
  unfold readText
  rw [Effect.bind_ok looked]
  exact ran

theorem write_gives (writing : shown.mode.writing = true) (bytes : Bytes)
    (inside : shown.file.tell + bytes.length ≤ Content.maxSize) :
    (write id bytes).Gives files home handles (.ok ())
      (plain.set id { shown with file := shown.file.write bytes }) := by
  apply lookup_run_gives mirrors tracked visible _ (fun _ => writing)
  · intro channel shows
    apply (Transfer.prepareWrite_yields shows).bind
    intro ready outward
    rw [← PlainFile.write_nil_write]
    exact Transfer.writeAll_yields outward rfl inside
  · intro entry found mode
    exact writableEntry_found found (mode ▸ writing)

theorem writeTerminated_gives (writing : shown.mode.writing = true) {bytes : Bytes}
    (inside : shown.file.tell + bytes.length + 1 ≤ Content.maxSize) :
    (writeTerminated id bytes).Gives files home handles (.ok ())
      (plain.set id { shown with file := shown.file.write (bytes ++ [0]) }) := by
  have room : shown.file.tell + bytes.length ≤ Content.maxSize := by omega
  apply (write_gives mirrors tracked visible writing bytes room).bind
  intro after reached
  have second := write_gives reached tracked (PlainFiles.set_self plain id _) writing [0]
    (by simpa [PlainFile.write, PlainFile.tell] using inside)
  rw [PlainFiles.set_set] at second
  rw [← PlainFile.write_write]
  exact second

theorem tell_gives : (tell id).Gives files home handles (.ok (shown.file.tell : Int)) plain := by
  obtain ⟨entry, found, shows⟩ := mirrors.find tracked visible
  have given := entry_run_gives mirrors tracked visible shows.outward
    fun channel seen => Transfer.position_yields seen
  rw [PlainFiles.set_of_visible visible] at given
  unfold tell
  rw [← bind_assoc]
  exact given.map Int.ofNat

theorem size_gives :
    (size id).Gives files home handles (.ok (shown.file.content.length : Int)) plain := by
  obtain ⟨entry, found, shows⟩ := mirrors.find tracked visible
  have given := entry_run_gives mirrors tracked visible shows.outward
    fun channel seen => Transfer.size_yields seen
  rw [PlainFiles.set_of_visible visible] at given
  unfold size
  rw [← bind_assoc]
  exact given.map Int.ofNat

theorem rewind_gives :
    (rewind id).Gives files home handles (.ok ())
      (plain.set id { shown with file := (shown.file.goTo 0).toward .none }) :=
  entry_run_gives mirrors tracked visible (by simp [PlainFile.toward])
    fun _ seen => Transfer.rewind_yields seen

theorem reposition_gives {target : Nat} (inside : target ≤ Content.maxSize) :
    FileM.Gives (entry id >>= fun entry => run entry (Transfer.reposition target)) files home handles
      (.ok ()) (plain.set id { shown with file := (shown.file.goTo target).toward .none }) :=
  entry_run_gives mirrors tracked visible (by simp [PlainFile.toward])
    fun _ seen => Transfer.reposition_yields seen inside

theorem setPosition_gives {position : Int} {target : Nat} (ordinary : id.isStandard = false)
    (checked : Position.toAbsolute position = .ok target) (inside : target ≤ Content.maxSize) :
    (setPosition id position).Gives files home handles (.ok ())
      (plain.set id { shown with file := (shown.file.goTo target).toward .none }) := by
  obtain ⟨after, ran, reached⟩ := reposition_gives mirrors tracked visible inside
  refine ⟨after, ?_, reached⟩
  unfold setPosition
  rw [if_neg (by simp [ordinary]), checked]
  exact ran

theorem search_gives (reading : shown.mode.reading = true) (needle : Bytes) {start finish : Int}
    {first last : Nat} (checkedStart : Position.toAbsolute start = .ok first)
    (checkedFinish : Position.toAbsolute finish = .ok last) (inside : first ≤ Content.maxSize) :
    (search id needle start finish).Gives files home handles
      (.ok (((shown.file.toward .read).search needle first last).1.map Int.ofNat))
      (plain.set id { shown with file := ((shown.file.toward .read).search needle first last).2 }) := by
  have given := readableEntry_run_gives mirrors tracked visible reading
    (PlainFile.search_direction _ needle first last)
    fun channel seen => Transfer.search_yields seen needle last inside
  obtain ⟨after, ran, reached⟩ := given.map fun found => found.map Int.ofNat
  refine ⟨after, ?_, reached⟩
  unfold search
  rw [checkedStart, checkedFinish]
  rw [bind_assoc] at ran
  exact ran

theorem searchBack_gives (reading : shown.mode.reading = true) (needle : Bytes) {first last : Int}
    {high low : Nat} (checkedFirst : Position.toAbsolute first = .ok high)
    (checkedLast : Position.toAbsolute last = .ok low)
    (inside : (if needle.isEmpty ∨ low ≤ high then high else low) ≤ Content.maxSize) :
    (searchBack id needle first last).Gives files home handles
      (.ok (((shown.file.toward .read).searchBack needle high low).1.map Int.ofNat))
      (plain.set id
        { shown with file := ((shown.file.toward .read).searchBack needle high low).2 }) := by
  have given := readableEntry_run_gives mirrors tracked visible reading
    (PlainFile.searchBack_direction _ needle high low)
    fun channel seen => Transfer.searchBack_yields seen needle inside
  obtain ⟨after, ran, reached⟩ := given.map fun found => found.map Int.ofNat
  refine ⟨after, ?_, reached⟩
  unfold searchBack
  rw [checkedFirst, checkedLast]
  rw [bind_assoc] at ran
  exact ran

theorem seek_start_gives {start : Nat} {whence : Int}
    (counted : (whence = 0 ∧ start = 0) ∨ (whence = 1 ∧ start = shown.file.tell)
      ∨ (whence = 2 ∧ start = shown.file.content.length)) :
    FileM.Gives (do
        let entry ← entry id
        match whence with
        | 0 => return 0
        | 1 => run entry Transfer.position
        | 2 => run entry Transfer.size
        | _ => throw (.badWhence whence))
      files home handles (.ok start) plain := by
  obtain ⟨entry, found, shows⟩ := mirrors.find tracked visible
  rcases counted with ⟨rfl, rfl⟩ | ⟨rfl, rfl⟩ | ⟨rfl, rfl⟩
  · exact ⟨files, Effect.bind_ok (entry_found found), mirrors⟩
  · have given := entry_run_gives mirrors tracked visible shows.outward
      fun channel seen => Transfer.position_yields seen
    rwa [PlainFiles.set_of_visible visible] at given
  · have given := entry_run_gives mirrors tracked visible shows.outward
      fun channel seen => Transfer.size_yields seen
    rwa [PlainFiles.set_of_visible visible] at given

/-- A move fails where its target does, and leaves the file as it was. -/
theorem seek_gives {offset whence : Int} (checked : Position.toOffset offset = .ok offset)
    (inside : (shown.file.target offset whence).toOption.getD 0 ≤ Content.maxSize) :
    (seek id offset whence).Gives files home handles
      ((shown.file.target offset whence).map fun _ => ())
      (match shown.file.target offset whence with
        | .ok target =>
            plain.set id { shown with file := (shown.file.goTo target).toward .none }
        | .error _ => plain) := by
  unfold seek
  rw [checked]
  rcases shown.file.target_cases offset whence with
    ⟨start, counted, target⟩ | ⟨unknown, target⟩
  · have given := seek_start_gives mirrors tracked visible counted
    have fits : Number.fitsWord start = true := by
      obtain ⟨entry, found, shows⟩ := mirrors.find tracked visible
      have size := shows.mirrors.content_length_le
      have position := shows.mirrors.tell_le
      simp only [Number.fitsWord, Content.maxSize] at *
      rcases counted with ⟨_, rfl⟩ | ⟨_, rfl⟩ | ⟨_, rfl⟩ <;> simp <;> omega
    apply given.bind
    intro after reached
    rw [fits]
    rw [target] at inside ⊢
    cases absolute : Position.toAbsolute (start + offset) with
    | error error => exact ⟨after, rfl, reached⟩
    | ok goal =>
      rw [absolute] at inside
      exact reposition_gives reached tracked visible inside
  · obtain ⟨entry, found, shows⟩ := mirrors.find tracked visible
    rw [target]
    refine ⟨files, ?_, mirrors⟩
    rw [Effect.lift_ok_bind_run]
    apply Effect.bind_error
    rw [Effect.bind_ok (entry_found found)]
    split
    · exact absurd rfl unknown.1
    · exact absurd rfl unknown.2.1
    · exact absurd rfl unknown.2.2
    · rfl

theorem isEof_gives : (isEof id).Gives files home handles (.ok shown.file.eof) plain := by
  obtain ⟨entry, found, shows⟩ := mirrors.find tracked visible
  obtain ⟨offset, disk, holds, mirrored⟩ := shows.mirrors
  refine ⟨files, ?_, mirrors⟩
  unfold isEof
  rw [Effect.bind_ok (entry_found found), mirrored.eof]
  rfl

theorem flush_gives : (flush id).Gives files home handles (.ok ()) plain := by
  obtain ⟨entry, found, shows⟩ := mirrors.find tracked visible
  unfold flush
  by_cases waits : (entry.mode.writing && entry.stream.direction != .read) = true
  · obtain ⟨after, ran, reached⟩ := run_gives mirrors found shows
      (Transfer.flush_yields shows.mirrors) shows.outward
    rw [PlainFiles.set_of_visible visible] at reached
    refine ⟨after, ?_, reached⟩
    rw [Effect.bind_ok (entry_found found), if_pos waits]
    exact ran
  · refine ⟨files, ?_, mirrors⟩
    rw [Effect.bind_ok (entry_found found), if_neg waits]
    rfl

end Operations

end Files

end Calculator
