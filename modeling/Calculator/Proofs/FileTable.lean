import Calculator.File.SearchPath
import Calculator.Proofs.TableRequests

/-!
# The file table over whole runs

What a call does to the table is seen in the labels of its entries, which are all of them but the
streams. Reading, writing and moving leave the labels; opening puts labels with new handles behind
them; only closing, and a reopening that fails, takes one away. So the standard streams stay, handles
are given out in increasing order, and the limit holds, whatever is called and whatever the host does.
-/

namespace Calculator

def Entry.label (entry : Entry) : FileId × String × Mode × Option NodeId :=
  (entry.id, entry.name, entry.mode, entry.node)

namespace FileTable

variable {table before after : FileTable} {id : FileId}

def labels (table : FileTable) : List (FileId × String × Mode × Option NodeId) :=
  table.entries.map Entry.label

theorem ids_eq (table : FileTable) : table.ids = table.labels.map Prod.fst := by
  rw [labels, List.map_map]
  rfl

theorem labels_length (table : FileTable) : table.labels.length = table.entries.length :=
  List.length_map _

theorem atIndex?_eq (table : FileTable) (index : Nat) : table.atIndex? index = table.ids[index]? := by
  rw [atIndex?, ids, List.getElem?_map]

theorem isOpen_iff (table : FileTable) (id : FileId) : table.isOpen id = true ↔ id ∈ table.ids := by
  rw [isOpen, find?, List.find?_isSome, ids, List.mem_map]
  simp only [beq_iff_eq]

theorem find?_none_iff (table : FileTable) (id : FileId) :
    table.find? id = none ↔ id ∉ table.ids := by
  rw [← isOpen_iff, isOpen]
  cases table.find? id <;> simp

theorem labels_setStream (table : FileTable) (id : FileId) (stream : Stream) :
    (table.setStream id stream).labels = table.labels := by
  rw [labels, setStream, update, List.map_map]
  apply List.map_congr_left
  intro entry _
  by_cases own : entry.id = id <;> simp [own, Entry.label]

theorem update_remove (table : FileTable) (id : FileId) (change : Entry → Entry) :
    (table.remove id).update id change = table.remove id := by
  rw [update]
  congr 1
  refine Eq.trans (List.map_congr_left ?_) (List.map_id _)
  intro entry present
  have other := (List.mem_filter.mp present).2
  rw [if_neg (by simpa using other)]
  rfl

theorem remove_setStream (table : FileTable) (id : FileId) (stream : Stream) :
    (table.setStream id stream).remove id = table.remove id := by
  have kept : ((fun entry : Entry => entry.id != id) ∘
      fun entry => if entry.id == id then { entry with stream } else entry)
        = fun entry => entry.id != id := by
    funext entry
    by_cases own : entry.id = id <;> simp [own]
  have moved : (table.setStream id stream).remove id = (table.remove id).setStream id stream := by
    rw [remove, setStream, update, setStream, update, remove, List.filter_map, kept]
  rw [moved]
  exact update_remove table id _

def keep (table : FileTable) (keeps : FileId → Bool) : FileTable :=
  { table with entries := table.entries.filter fun entry => keeps entry.id }

theorem remove_eq_keep (table : FileTable) (id : FileId) :
    table.remove id = table.keep fun other => other != id := rfl

theorem ids_keep (table : FileTable) (keeps : FileId → Bool) :
    (table.keep keeps).ids = table.ids.filter keeps := by
  rw [ids, keep, ids, List.filter_map]
  rfl

theorem keep_keep (table : FileTable) (first second : FileId → Bool) :
    (table.keep first).keep second = table.keep fun id => second id && first id := by
  rw [keep, keep, List.filter_filter]
  rfl

theorem keep_congr {first second : FileId → Bool} (same : ∀ id ∈ table.ids, first id = second id) :
    table.keep first = table.keep second := by
  rw [keep, keep]
  congr 1
  apply List.filter_congr
  intro entry present
  exact same entry.id (List.mem_map_of_mem present)

theorem keep_all {keeps : FileId → Bool} (all : ∀ id ∈ table.ids, keeps id = true) :
    table.keep keeps = table := by
  have same : table.entries.filter (fun entry => keeps entry.id) = table.entries := by
    rw [List.filter_eq_self]
    intro entry present
    exact all entry.id (List.mem_map_of_mem present)
  rw [keep, same]

/-- Handles `ids` were given out, each the next one. -/
structure Counted (before : FileTable) (ids : List FileId) (after : FileTable) : Prop where
  fresh : ids.map FileId.number = List.range' (before.lastId + 1) ids.length
  lastId : after.lastId = before.lastId + ids.length
  limit : after.maxFiles = before.maxFiles

theorem Counted.trans {middle : FileTable} {first second : List FileId}
    (one : before.Counted first middle) (two : middle.Counted second after) :
    before.Counted (first ++ second) after where
  fresh := by
    rw [List.map_append, one.fresh, two.fresh, one.lastId, List.length_append,
      ← List.range'_append_1]
    congr 2
    omega
  lastId := by
    rw [two.lastId, one.lastId, List.length_append]
    omega
  limit := two.limit.trans one.limit

/-- Where all handles so far were given out in their order, so they are with the new ones. -/
theorem Counted.range {given ids : List FileId} (counted : before.Counted ids after)
    (numbers : given.map FileId.number = List.range (before.lastId + 1)) :
    (given ++ ids).map FileId.number = List.range (after.lastId + 1) := by
  have joined : List.range (before.lastId + 1) ++ List.range' (before.lastId + 1) ids.length
      = List.range (before.lastId + 1 + ids.length) := by
    generalize before.lastId + 1 = next
    rw [List.range_eq_range', List.range_eq_range', ← List.range'_append_1, Nat.zero_add]
  rw [List.map_append, numbers, counted.fresh, counted.lastId, joined, Nat.add_right_comm]

/-- The handles that were given out are those of files that stand behind the others now. With no
handles this is a table in which at most streams have changed. -/
structure Entered (before : FileTable) (ids : List FileId) (after : FileTable) : Prop
    extends before.Counted ids after where
  labels : ∃ added, after.labels = before.labels ++ added ∧ added.map Prod.fst = ids
  room : before.entries.length ≤ before.maxFiles → after.entries.length ≤ before.maxFiles

theorem Entered.refl (table : FileTable) : table.Entered [] table where
  labels := ⟨[], (List.append_nil _).symm, rfl⟩
  fresh := rfl
  lastId := rfl
  limit := rfl
  room := fun fits => fits

theorem Entered.trans {middle : FileTable} {first second : List FileId}
    (one : before.Entered first middle) (two : middle.Entered second after) :
    before.Entered (first ++ second) after where
  toCounted := one.toCounted.trans two.toCounted
  labels := by
    obtain ⟨added, labels, ids⟩ := one.labels
    obtain ⟨further, whole, more⟩ := two.labels
    refine ⟨added ++ further, ?_, ?_⟩
    · rw [whole, labels, List.append_assoc]
    · rw [List.map_append, ids, more]
  room := by
    intro fits
    have middle := two.room
    rw [one.limit] at middle
    exact middle (one.room fits)

def Steady (before after : FileTable) : Prop :=
  before.Entered [] after

theorem Steady.labels_eq (steady : before.Steady after) : after.labels = before.labels := by
  obtain ⟨added, labels, none⟩ := steady.labels
  rw [labels, List.map_eq_nil_iff.mp none, List.append_nil]

theorem Steady.trans {middle : FileTable} (one : before.Steady middle) (two : middle.Steady after) :
    before.Steady after :=
  Entered.trans one two

theorem setStream_steady (table : FileTable) (id : FileId) (stream : Stream) :
    table.Steady (table.setStream id stream) where
  labels := ⟨[], by rw [labels_setStream, List.append_nil], rfl⟩
  fresh := rfl
  lastId := rfl
  limit := rfl
  room := by
    intro fits
    rwa [← labels_length, labels_setStream, labels_length]

theorem Entered.ids {ids : List FileId} (entered : before.Entered ids after) :
    after.ids = before.ids ++ ids := by
  obtain ⟨added, labels, added_ids⟩ := entered.labels
  rw [ids_eq, labels, List.map_append, added_ids, ids_eq]

theorem Entered.lt_of_mem {ids : List FileId} (entered : before.Entered ids after)
    (given : id ∈ ids) : before.lastId < id.number := by
  have member : id.number ∈ ids.map FileId.number := List.mem_map_of_mem given
  rw [entered.fresh, List.mem_range'_1] at member
  omega

/-- What the table is like in every state of a run. -/
structure Kept (table : FileTable) : Prop where
  standard : ∀ id : FileId, id.isStandard = true → id ∈ table.ids
  bounded : ∀ id ∈ table.ids, id.number ≤ table.lastId
  distinct : table.ids.Nodup
  room : table.entries.length ≤ table.maxFiles

theorem Entered.kept {ids : List FileId} (entered : before.Entered ids after) (kept : before.Kept) :
    after.Kept where
  standard := by
    intro id standard
    rw [entered.ids]
    exact List.mem_append_left _ (kept.standard id standard)
  bounded := by
    intro id present
    rw [entered.ids] at present
    rw [entered.lastId]
    rcases List.mem_append.mp present with old | given
    · exact Nat.le_add_right_of_le (kept.bounded id old)
    · have member : id.number ∈ ids.map FileId.number := List.mem_map_of_mem given
      rw [entered.fresh, List.mem_range'_1] at member
      omega
  distinct := by
    rw [entered.ids, List.nodup_append]
    refine ⟨kept.distinct, ?_, ?_⟩
    · have numbers : (ids.map FileId.number).Nodup := by
        rw [entered.fresh]
        exact List.nodup_range'
      exact List.Pairwise.of_map FileId.number
        (fun _ _ differ same => differ (congrArg FileId.number same)) numbers
    · rintro id old other given rfl
      exact Nat.not_lt_of_le (kept.bounded id old) (entered.lt_of_mem given)
  room := by
    rw [entered.limit]
    exact entered.room kept.room

theorem Kept.keep (kept : table.Kept) {keeps : FileId → Bool}
    (standard : ∀ id : FileId, id.isStandard = true → keeps id = true) : (table.keep keeps).Kept where
  standard := by
    intro id own
    rw [ids_keep, List.mem_filter]
    exact ⟨kept.standard id own, standard id own⟩
  bounded := by
    intro id present
    rw [ids_keep] at present
    exact kept.bounded id (List.mem_filter.mp present).1
  distinct := by
    rw [ids_keep]
    exact kept.distinct.filter _
  room := Nat.le_trans (List.length_filter_le _ _) kept.room

/-- The file of a handle is another one, and all else is as it was. -/
structure Replaced (before : FileTable) (id : FileId) (after : FileTable) : Prop where
  labels : ∃ label, label.1 = id
    ∧ after.labels = before.labels.map fun other => if other.1 = id then label else other
  lastId : after.lastId = before.lastId
  limit : after.maxFiles = before.maxFiles

theorem Replaced.ids (replaced : before.Replaced id after) : after.ids = before.ids := by
  obtain ⟨label, own, labels⟩ := replaced.labels
  rw [ids_eq, labels, List.map_map, ids_eq]
  apply List.map_congr_left
  intro other _
  by_cases same : other.1 = id <;> simp [same, own]

theorem Replaced.kept (replaced : before.Replaced id after) (kept : before.Kept) : after.Kept where
  standard := by
    rw [replaced.ids]
    exact kept.standard
  bounded := by
    rw [replaced.ids, replaced.lastId]
    exact kept.bounded
  distinct := by
    rw [replaced.ids]
    exact kept.distinct
  room := by
    have length := congrArg List.length replaced.ids
    rw [FileTable.ids, FileTable.ids, List.length_map, List.length_map] at length
    rw [length, replaced.limit]
    exact kept.room

/-- A handle that was given out before has a file again, behind all others. -/
structure Reattached (before : FileTable) (id : FileId) (after : FileTable) : Prop where
  closed : id ∉ before.ids
  given : id.number ≤ before.lastId
  labels : ∃ label, label.1 = id ∧ after.labels = before.labels ++ [label]
  lastId : after.lastId = before.lastId
  limit : after.maxFiles = before.maxFiles
  room : before.entries.length < before.maxFiles

theorem Reattached.ids (reattached : before.Reattached id after) : after.ids = before.ids ++ [id] := by
  obtain ⟨label, own, labels⟩ := reattached.labels
  rw [ids_eq, labels, List.map_append, ids_eq, List.map_singleton, own]

theorem Reattached.kept (reattached : before.Reattached id after) (kept : before.Kept) :
    after.Kept where
  standard := by
    intro other standard
    rw [reattached.ids]
    exact List.mem_append_left _ (kept.standard other standard)
  bounded := by
    intro other present
    rw [reattached.ids] at present
    rw [reattached.lastId]
    rcases List.mem_append.mp present with old | new
    · exact kept.bounded other old
    · rw [List.mem_singleton.mp new]
      exact reattached.given
  distinct := by
    rw [reattached.ids, List.nodup_append]
    refine ⟨kept.distinct, List.pairwise_singleton _ id, ?_⟩
    rintro other old last new rfl
    rw [List.mem_singleton.mp new] at old
    exact reattached.closed old
  room := by
    have length := congrArg List.length reattached.ids
    rw [FileTable.ids, FileTable.ids, List.length_append, List.length_map, List.length_map] at length
    rw [length, reattached.limit]
    exact reattached.room

end FileTable

namespace Files

open Effect (Always)

def Steady (before after : Files) : Prop :=
  before.table.Steady after.table

theorem Steady.refl (files : Files) : Steady files files :=
  FileTable.Entered.refl files.table

theorem Steady.trans (first second third : Files) (one : Steady first second)
    (two : Steady second third) : Steady first third :=
  FileTable.Steady.trans one two

theorem steady_chain : Chain Steady where
  refl := Steady.refl
  trans := Steady.trans

theorem entry_bind_steady {α : Type} (id : FileId) {next : Entry → FileM α}
    (continued : ∀ entry, Always Steady (next entry)) : Always Steady (entry id >>= next) :=
  (entry_looks id).always steady_chain fun files entry _ _ => continued entry files

theorem run_steady {α : Type} (entry : Entry) (transfer : Transfer α) :
    Always Steady (run entry transfer) :=
  fun files => files.table.setStream_steady entry.id _

theorem ran_steady {id : FileId} {writing : Bool} {before after : Files}
    (ran : Ran id writing before after) : Steady before after := by
  obtain ⟨_, _⟩ := ran
  exact run_steady _ _ _

theorem perform_steady (request : FileRequest) : Always Steady request.perform :=
  fun files => steady_chain.along (fun _ _ => ran_steady) (perform_served request files)

theorem visited_steady {α : Type} {program : FileM α} (visited : Always Visited program) :
    Always Steady program :=
  fun files => steady_chain.along (fun _ _ ⟨_, ran⟩ => ran_steady ran) (visited files)

theorem enter_entered (files : Files) (descriptor : DescriptorId) (name : String) (mode : Mode)
    (room : files.table.isFull = false) :
    files.table.Entered [(files.enter descriptor name mode).1]
      (files.enter descriptor name mode).2.table where
  labels := ⟨[(newEntry files.host ⟨files.table.lastId + 1⟩ descriptor name mode true).label],
    List.map_append, rfl⟩
  fresh := rfl
  lastId := rfl
  limit := rfl
  room := by
    intro _
    have below : files.table.entries.length < files.table.maxFiles := by
      simpa [FileTable.isFull] using room
    rw [enter, FileTable.append, List.length_append]
    exact below

theorem parseMode_run (text : String) (files : Files) :
    parseMode text files
      = (match Mode.parse? text with
        | some mode => .ok mode
        | none => .error (.badMode text), files) := by
  unfold parseMode
  cases Mode.parse? text <;> rfl

theorem requireRoom_run (files : Files) :
    requireRoom files = (if files.table.isFull then .error .tooManyOpen else .ok (), files) := by
  unfold requireRoom
  rw [Effect.get_bind_run]
  cases files.table.isFull <;> rfl

theorem request_run {α : Type} (ask : Host → Except Fault α × Host) (files : Files) :
    request ask files
      = ((ask files.host).1.mapError FileError.host, { files with host := (ask files.host).2 }) := rfl

/-- The answer gives out one handle, or there is an error and no handle. -/
def Opens (files : Files) (answer : Except FileError FileId × Files) : Prop :=
  match answer.1 with
  | .ok id => files.table.Entered [id] answer.2.table
  | .error _ => files.table.Steady answer.2.table

theorem checked_opens {files : Files} {next : Mode → FileM FileId} (text : String)
    (opens : ∀ mode, files.table.isFull = false → files.Opens (next mode files)) :
    files.Opens ((do let mode ← parseMode text; requireRoom; next mode) files) := by
  have parsed := parseMode_run text files
  cases found : Mode.parse? text with
  | none =>
      rw [found] at parsed
      rw [Effect.bind_error parsed]
      exact Steady.refl files
  | some mode =>
      rw [found] at parsed
      rw [Effect.bind_ok parsed]
      have room := requireRoom_run files
      cases full : files.table.isFull with
      | true =>
          rw [full] at room
          rw [Effect.bind_error room]
          exact Steady.refl files
      | false =>
          rw [full] at room
          rw [Effect.bind_ok room]
          exact opens mode full

theorem openFile_opens (files : Files) (name mode : String) :
    files.Opens (openFile name mode files) := by
  apply checked_opens
  intro taken room
  have ran := request_run (fun host => host.openName name taken.request) files
  rcases asked : files.host.openName name taken.request with ⟨result, host⟩
  simp only [asked] at ran
  cases result with
  | error fault =>
      rw [Effect.bind_error ran]
      exact Steady.refl files
  | ok descriptor =>
      rw [Effect.bind_ok ran]
      exact enter_entered { files with host } descriptor name taken room

theorem openFirst_opens (files : Files) (mode : Mode) (failure : FileError)
    (candidates : List String) (room : files.table.isFull = false) :
    files.Opens (openFirst mode failure candidates files) := by
  induction candidates generalizing files failure with
  | nil => exact Steady.refl files
  | cons candidate rest ih =>
      unfold openFirst
      rw [Effect.get_bind_run]
      rcases asked : files.host.openName candidate mode.request with ⟨result, host⟩
      cases result with
      | error fault => exact ih { files with host } (.host fault) room
      | ok descriptor => exact enter_entered { files with host } descriptor candidate mode room

theorem openAlong_opens (files : Files) (name mode path : String) :
    files.Opens (openAlong name mode path files) := by
  apply checked_opens
  intro taken room
  split
  · exact openFile_opens files name mode
  · exact openFirst_opens files taken _ _ room

theorem adoptInherited_entered (files : Files) :
    ∃ ids, files.table.Entered ids files.adoptInherited.table := by
  unfold adoptInherited
  generalize files.table.descriptorLimit = limit
  induction files.host.inherited generalizing files with
  | nil => exact ⟨[], Steady.refl files⟩
  | cons inheritance rest ih =>
      rw [List.foldl_cons]
      split
      · exact ih files
      · rename_i admitted
        have room : files.table.isFull = false := by simp_all
        obtain ⟨ids, entered⟩ := ih (files.enter inheritance.descriptor
          ("descriptor[" ++ Positional.decimal inheritance.number ++ "]")
          (Mode.ofAccess inheritance.access)).2
        exact ⟨_, (enter_entered files _ _ _ room).trans entered⟩

theorem close_table {id : FileId} (ordinary : id.isStandard = false) (files : Files) :
    (close id files).2.table = files.table.remove id := by
  cases found : files.table.find? id with
  | none =>
      have refused : (close id files).2 = files := by
        unfold close
        rw [if_neg (by simp [ordinary])]
        exact congrArg Prod.snd (Effect.bind_error (entry_missing found))
      rw [refused, FileTable.remove_eq_keep, FileTable.keep_all]
      intro other present
      rw [bne_iff_ne]
      rintro rfl
      exact (files.table.find?_none_iff other).mp found present
  | some entry =>
      rw [close_files found ordinary]
      split
      · rw [run_files, without, FileTable.id_of_find? found]
        exact FileTable.update_remove files.table id _
      · rfl

theorem close_standard {id : FileId} (standard : id.isStandard = true) (files : Files) :
    (close id files).2 = files := by
  unfold close
  rw [if_pos standard]
  rfl

theorem foldl_close_table (ids : List FileId) (ordinary : ∀ id ∈ ids, id.isStandard = false)
    (files : Files) :
    (ids.foldl (fun files id => (close id files).2) files).table
      = files.table.keep fun id => decide (id ∉ ids) := by
  induction ids generalizing files with
  | nil =>
      rw [FileTable.keep_all (by simp)]
      rfl
  | cons id rest ih =>
      rw [List.foldl_cons, ih fun other later => ordinary other (List.mem_cons_of_mem _ later),
        close_table (ordinary id List.mem_cons_self), FileTable.remove_eq_keep, FileTable.keep_keep]
      apply FileTable.keep_congr
      intro other _
      by_cases own : other = id <;> simp [own]

theorem closeAll_table (files : Files) :
    (closeAll files).2.table = files.table.keep FileId.isStandard := by
  have run : (closeAll files).2
      = (files.table.ids.filter fun id => !id.isStandard).foldl
          (fun files id => (close id files).2) files := forAll_files close _ files
  rw [run, foldl_close_table _ (by simp)]
  apply FileTable.keep_congr
  intro id present
  cases standard : id.isStandard <;> simp [present, standard]

/-- What becomes of the table when a file is reopened. -/
inductive Reopens (before : FileTable) (id : FileId) (after : FileTable) :
    Except FileError FileId → Prop
  | refused {error} (steady : before.Steady after) : Reopens before id after (.error error)
  | dropped {error} (ordinary : id.isStandard = false) (removed : after = before.remove id) :
      Reopens before id after (.error error)
  | replaced (replaced : before.Replaced id after) : Reopens before id after (.ok id)
  | reattached (reattached : before.Reattached id after) : Reopens before id after (.ok id)

theorem update_replaced {before middle : FileTable} (steady : before.Steady middle) (entry : Entry) :
    before.Replaced entry.id (middle.update entry.id fun _ => entry) := by
  refine ⟨⟨entry.label, rfl, ?_⟩, steady.lastId, steady.limit⟩
  rw [← steady.labels_eq, FileTable.labels, FileTable.update, List.map_map, FileTable.labels,
    List.map_map]
  apply List.map_congr_left
  intro other _
  by_cases own : other.id = entry.id <;> simp [own, Entry.label]

/-- The new file of an open one is asked for, and takes its place. -/
def swap (id : FileId) (path : String) (mode : Mode) : FileM FileId := do
  let files ← get
  match files.host.openName path mode.request with
  | (.ok descriptor, host) =>
      let entry := newEntry host id descriptor path mode true
      set ({ table := files.table.update id fun _ => entry, host } : Files)
      return id
  | (.error fault, host) =>
      set ({ table := files.table.remove id, host } : Files)
      throw (.host fault)

theorem swap_run (files : Files) (id : FileId) (path : String) (mode : Mode) :
    swap id path mode files
      = match files.host.openName path mode.request with
        | (.ok descriptor, host) => (.ok id, {
            table := files.table.update id fun _ => newEntry host id descriptor path mode true
            host := host })
        | (.error fault, host) => (.error (.host fault), {
            table := files.table.remove id
            host := host }) := by
  rw [swap, Effect.get_bind_run]
  rcases files.host.openName path mode.request with ⟨answer, host⟩
  cases answer <;> rfl

/-- The new file of a closed one is asked for where there is room, and stands behind the others. -/
def putBack (id : FileId) (path : String) (mode : Mode) : FileM FileId := do
  requireRoom
  let descriptor ← request fun host => host.openName path mode.request
  modify fun files =>
    { files with table := files.table.append (newEntry files.host id descriptor path mode true) }
  return id

theorem swap_reopens {files middle : Files} {id : FileId} (ordinary : id.isStandard = false)
    (steady : files.table.Steady middle.table)
    (others : middle.table.remove id = files.table.remove id) (path : String) (mode : Mode) :
    Reopens files.table id (swap id path mode middle).2.table (swap id path mode middle).1 := by
  rw [swap_run]
  rcases middle.host.openName path mode.request with ⟨result, host⟩
  cases result with
  | error fault => exact .dropped ordinary others
  | ok descriptor =>
      exact .replaced (update_replaced steady (newEntry host id descriptor path mode true))

theorem reattach_reopens {files : Files} {id : FileId} (closed : id ∉ files.table.ids) (path : String)
    (mode : Mode) :
    let answer := (do
      if (← get).table.lastId < id.number then throw (.notOpen id)
      putBack id path mode : FileM FileId) files
    Reopens files.table id answer.2.table answer.1 := by
  have refused {error : FileError} : Reopens files.table id files.table (.error error) :=
    .refused (Steady.refl files)
  simp only [Effect.get_bind_run]
  by_cases later : files.table.lastId < id.number
  · simp only [if_pos later]
    exact refused
  simp only [if_neg later, putBack]
  have room := requireRoom_run files
  cases full : files.table.isFull with
  | true =>
      rw [full] at room
      rw [Effect.bind_error room]
      exact refused
  | false =>
      rw [full] at room
      rw [Effect.bind_ok room]
      have ran := request_run (fun host => host.openName path mode.request) files
      rcases asked : files.host.openName path mode.request with ⟨result, host⟩
      simp only [asked] at ran
      cases result with
      | error fault =>
          rw [Effect.bind_error ran]
          exact refused
      | ok descriptor =>
          rw [Effect.bind_ok ran]
          refine .reattached ⟨closed, Nat.le_of_not_lt later, ?_, rfl, rfl, ?_⟩
          · exact ⟨(newEntry host id descriptor path mode true).label, rfl, List.map_append⟩
          · simpa [FileTable.isFull] using full

theorem reopen_reopens (files : Files) (id : FileId) (mode : String) (name : Option String) :
    Reopens files.table id (reopen id mode name files).2.table (reopen id mode name files).1 := by
  unfold reopen
  cases standard : id.isStandard with
  | true => exact .refused (Steady.refl files)
  | false =>
      simp only [Bool.false_eq_true, if_false]
      have parsed := parseMode_run mode files
      cases text : Mode.parse? mode with
      | none =>
          rw [text] at parsed
          rw [Effect.bind_error parsed]
          exact .refused (Steady.refl files)
      | some taken =>
          rw [text] at parsed
          rw [Effect.bind_ok parsed, Effect.get_bind_run]
          cases found : files.table.find? id with
          | none =>
              cases name with
              | none => exact .refused (Steady.refl files)
              | some path =>
                  exact reattach_reopens ((files.table.find?_none_iff id).mp found) path taken
          | some entry =>
              simp only
              cases writing : entry.mode.writing with
              | false =>
                  exact swap_reopens standard (Steady.refl files) rfl (name.getD entry.name) taken
              | true =>
                  have flushed := run_files entry Transfer.flush files
                  have steady := run_steady entry Transfer.flush files
                  rcases ran : run entry Transfer.flush files with ⟨result, middle⟩
                  rw [ran] at flushed steady
                  simp only [if_true]
                  cases result with
                  | error error =>
                      rw [Effect.bind_error ran]
                      exact .refused steady
                  | ok _ =>
                      rw [Effect.bind_ok ran]
                      refine swap_reopens standard steady ?_ (name.getD entry.name) taken
                      have table := congrArg Files.table flushed
                      rw [table, FileTable.id_of_find? found]
                      exact FileTable.remove_setStream files.table id _

end Files

end Calculator
