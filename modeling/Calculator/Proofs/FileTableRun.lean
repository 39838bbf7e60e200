import Calculator.Proofs.FileTable
import Mathlib.Data.List.Nodup

/-!
# Runs of calls on the file table

A run starts with the table of a configuration and makes any calls, which may fail, while anything may
happen to the host between them. In every state of a run the standard streams are open, every entry
stands under its own handle, and the limit holds; handles are given out in increasing order; and an
entry is taken out only by closing it or by a reopening of it that fails, with the others in their
order.
-/

namespace Calculator

namespace FileTable

variable {table : FileTable}

def label? (table : FileTable) (id : FileId) : Option (FileId × String × Mode × Option NodeId) :=
  (table.find? id).map Entry.label

theorem Kept.find?_eq_some_iff (kept : table.Kept) (id : FileId) (entry : Entry) :
    table.find? id = some entry ↔ entry ∈ table.entries ∧ entry.id = id := by
  constructor
  · intro found
    exact ⟨List.mem_of_find?_eq_some found, id_of_find? found⟩
  · rintro ⟨present, rfl⟩
    have opened : table.isOpen entry.id = true :=
      (table.isOpen_iff entry.id).mpr (List.mem_map_of_mem present)
    obtain ⟨other, found⟩ := Option.isSome_iff_exists.mp opened
    have same : other = entry :=
      List.inj_on_of_nodup_map kept.distinct (List.mem_of_find?_eq_some found) present
        (id_of_find? found)
    rw [found, same]

theorem Kept.label?_eq_some_iff (kept : table.Kept) (id : FileId)
    (label : FileId × String × Mode × Option NodeId) :
    table.label? id = some label ↔ label ∈ table.labels ∧ label.1 = id := by
  simp only [label?, Option.map_eq_some_iff, kept.find?_eq_some_iff, labels, List.mem_map]
  constructor
  · rintro ⟨entry, ⟨present, rfl⟩, rfl⟩
    exact ⟨⟨entry, present, rfl⟩, rfl⟩
  · rintro ⟨⟨entry, present, rfl⟩, own⟩
    exact ⟨entry, ⟨present, own⟩, rfl⟩

/-- The standard streams are open; the entries are found under their own handles, each of which was
given out; and there are no more than the limit. -/
structure Sound (table : FileTable) (limit : Nat) : Prop where
  standard : ∀ id ∈ [FileId.stdin, .stdout, .stderr], table.isOpen id = true
  keyed : ∀ id entry, table.find? id = some entry ↔ entry ∈ table.entries ∧ entry.id = id
  given : ∀ id, table.isOpen id = true → id.number ≤ table.lastId
  room : table.entries.length ≤ limit

theorem Kept.sound (kept : table.Kept) : table.Sound table.maxFiles where
  standard := by
    intro id standard
    refine (table.isOpen_iff id).mpr (kept.standard id ?_)
    revert id
    decide
  keyed := kept.find?_eq_some_iff
  given := by
    intro id opened
    exact kept.bounded id ((table.isOpen_iff id).mp opened)
  room := kept.room

/-- The entries that are kept are as they were, and stand in the places that their order gives them. -/
structure Pruned (before : FileTable) (keeps : FileId → Bool) (after : FileTable) : Prop where
  entries : after.entries = before.entries.filter fun entry => keeps entry.id
  places : ∀ index, after.atIndex? index = (before.ids.filter keeps)[index]?

theorem keep_pruned (table : FileTable) (keeps : FileId → Bool) :
    table.Pruned keeps (table.keep keeps) where
  entries := rfl
  places := by
    intro index
    rw [atIndex?_eq, ids_keep]

end FileTable

/-- A call on the file table, or a change of the host in which the table has no part. -/
inductive FileCall where
  | openFile (name mode : String)
  | openAlong (name mode path : String)
  | reopen (id : FileId) (mode : String) (name : Option String)
  | close (id : FileId)
  | closeAll
  | adoptInherited
  | ask (request : FileRequest)
  | flushAll
  | rewindAll
  | isFailed (id : FileId)
  | isTerminal (id : FileId)
  | node (id : FileId)
  | elsewhere (host : Host)

namespace FileCall

/-- Makes a call. The answer of a call that opens a file is the handle. -/
def perform : FileCall → FileM (Option FileId)
  | openFile name mode => return some (← Files.openFile name mode)
  | openAlong name mode path => return some (← Files.openAlong name mode path)
  | reopen id mode name => return some (← Files.reopen id mode name)
  | close id => do Files.close id; return none
  | closeAll => do Files.closeAll; return none
  | adoptInherited => do modify Files.adoptInherited; return none
  | ask request => do let _ ← request.perform; return none
  | flushAll => do Files.flushAll; return none
  | rewindAll => do Files.rewindAll; return none
  | isFailed id => do let _ ← Files.isFailed id; return none
  | isTerminal id => do let _ ← Files.isTerminal id; return none
  | node id => do let _ ← Files.node id; return none
  | elsewhere host => do modify fun files => { files with host }; return none

def after (call : FileCall) (files : Files) : Files :=
  (call.perform files).2

/-- The handles that a call gives out. Adopting files gives out those that the table did not have. -/
def handles (call : FileCall) (files : Files) : List FileId :=
  match call with
  | openFile _ _ | openAlong _ _ _ =>
      match (call.perform files).1 with
      | .ok (some id) => [id]
      | _ => []
  | adoptInherited => (call.after files).table.ids.filter fun id => decide (id ∉ files.table.ids)
  | _ => []

def afterAll (calls : List FileCall) (files : Files) : Files :=
  calls.foldl (fun files call => call.after files) files

def handlesAll : List FileCall → Files → List FileId
  | [], _ => []
  | call :: rest, files => call.handles files ++ handlesAll rest (call.after files)

/-- All that a call can do to the table, with its answer and the handles that it gives out. -/
inductive Outcome (before after : FileTable) :
    FileCall → Except FileError (Option FileId) → List FileId → Prop
  | enters {call answer ids} (entered : before.Entered ids after) :
      Outcome before after call answer ids
  | replaces {id mode name answer} (replaced : before.Replaced id after) :
      Outcome before after (.reopen id mode name) answer []
  | reattaches {id mode name answer} (reattached : before.Reattached id after) :
      Outcome before after (.reopen id mode name) answer []
  | drops {id mode name error} (ordinary : id.isStandard = false) (removed : after = before.remove id) :
      Outcome before after (.reopen id mode name) (.error error) []
  | closes {id answer} (ordinary : id.isStandard = false) (removed : after = before.remove id) :
      Outcome before after (.close id) answer []
  | clears {answer} (cleared : after = before.keep FileId.isStandard) :
      Outcome before after .closeAll answer []

theorem enters_of_opens {call : FileCall} {files : Files} {program : FileM FileId}
    (opens : files.Opens (program files))
    (performs : call.perform = program >>= fun id => pure (some id))
    (gives : call.handles files = match (call.perform files).1 with
      | .ok (some id) => [id]
      | _ => []) :
    Outcome files.table (call.after files).table call (call.perform files).1 (call.handles files) := by
  rw [gives, after, performs]
  rw [Files.Opens] at opens
  rcases ran : program files with ⟨answer, reached⟩
  rw [ran] at opens
  cases answer with
  | ok id =>
      rw [Effect.bind_ok ran]
      exact .enters opens
  | error error =>
      rw [Effect.bind_error ran]
      exact .enters opens

theorem bind_pure_state {α β : Type} (program : FileM α) (result : β) (files : Files) :
    ((program >>= fun _ => pure result) files).2 = (program files).2 :=
  Effect.bind_state program (fun _ _ => rfl) files

theorem after_close (id : FileId) (files : Files) :
    (FileCall.close id).after files = (Files.close id files).2 :=
  bind_pure_state (Files.close id) none files

theorem after_closeAll (files : Files) : closeAll.after files = (Files.closeAll files).2 :=
  bind_pure_state Files.closeAll none files

theorem steady_outcome {α : Type} {call : FileCall} {files : Files} {program : FileM α}
    (steady : Effect.Always Files.Steady program)
    (performs : call.perform = program >>= fun _ => pure none) (gives : call.handles files = []) :
    Outcome files.table (call.after files).table call (call.perform files).1 (call.handles files) := by
  rw [gives, after, performs, bind_pure_state]
  exact .enters (steady files)

theorem outcome {files : Files} (kept : files.table.Kept) (call : FileCall) :
    Outcome files.table (call.after files).table call (call.perform files).1 (call.handles files) := by
  cases call with
  | openFile name mode => exact enters_of_opens (files.openFile_opens name mode) rfl rfl
  | openAlong name mode path => exact enters_of_opens (files.openAlong_opens name mode path) rfl rfl
  | reopen id mode name =>
      have reopens := files.reopen_reopens id mode name
      have given : (FileCall.reopen id mode name).handles files = [] := rfl
      rw [given, after, perform]
      rcases ran : Files.reopen id mode name files with ⟨answer, reached⟩
      rw [ran] at reopens
      cases answer with
      | error error =>
          rw [Effect.bind_error ran]
          cases reopens with
          | refused steady => exact .enters steady
          | dropped ordinary removed => exact .drops ordinary removed
      | ok opened =>
          rw [Effect.bind_ok ran]
          cases reopens with
          | replaced replaced => exact .replaces replaced
          | reattached reattached => exact .reattaches reattached
  | close id =>
      rw [after_close]
      cases standard : id.isStandard with
      | true =>
          rw [Files.close_standard standard]
          exact .enters (Files.Steady.refl files)
      | false => exact .closes standard (Files.close_table standard files)
  | closeAll =>
      rw [after_closeAll]
      exact .clears (Files.closeAll_table files)
  | adoptInherited =>
      obtain ⟨ids, entered⟩ := files.adoptInherited_entered
      have given : adoptInherited.handles files = ids := by
        have reached : (adoptInherited.after files).table.ids = files.table.ids ++ ids := entered.ids
        rw [handles, reached, List.filter_append, List.filter_eq_nil_iff.mpr (by simp),
          List.nil_append, List.filter_eq_self]
        intro id new
        rw [decide_eq_true_iff]
        intro old
        exact Nat.not_lt_of_le (kept.bounded id old) (entered.lt_of_mem new)
      rw [given]
      exact .enters entered
  | ask request => exact steady_outcome (Files.perform_steady request) rfl rfl
  | flushAll => exact steady_outcome (Files.visited_steady Files.flushAll_visited) rfl rfl
  | rewindAll => exact steady_outcome (Files.visited_steady Files.rewindAll_visited) rfl rfl
  | isFailed id =>
      refine steady_outcome (Files.entry_bind_steady id ?_) rfl rfl
      intro entry
      exact Effect.Always.pure Files.Steady.refl _
  | isTerminal id =>
      exact steady_outcome (Effect.Always.pure Files.Steady.refl _) rfl rfl
  | node id =>
      refine steady_outcome (Files.entry_bind_steady id ?_) rfl rfl
      intro entry
      exact Effect.Always.pure Files.Steady.refl _
  | elsewhere host => exact .enters (Files.Steady.refl files)

theorem Outcome.counted {before after : FileTable} {call : FileCall}
    {answer : Except FileError (Option FileId)} {ids : List FileId}
    (outcome : Outcome before after call answer ids) : before.Counted ids after := by
  cases outcome with
  | enters entered => exact entered.toCounted
  | replaces replaced => exact ⟨rfl, replaced.lastId, replaced.limit⟩
  | reattaches reattached => exact ⟨rfl, reattached.lastId, reattached.limit⟩
  | drops _ removed | closes _ removed =>
      rw [removed]
      exact ⟨rfl, rfl, rfl⟩
  | clears cleared =>
      rw [cleared]
      exact ⟨rfl, rfl, rfl⟩

theorem Outcome.kept {before after : FileTable} {call : FileCall}
    {answer : Except FileError (Option FileId)} {ids : List FileId}
    (outcome : Outcome before after call answer ids) (kept : before.Kept) : after.Kept := by
  cases outcome with
  | enters entered => exact entered.kept kept
  | replaces replaced => exact replaced.kept kept
  | reattaches reattached => exact reattached.kept kept
  | drops ordinary removed | closes ordinary removed =>
      rw [removed, FileTable.remove_eq_keep]
      apply kept.keep
      rintro other standard
      rw [bne_iff_ne]
      rintro rfl
      rw [ordinary] at standard
      cases standard
  | clears cleared =>
      rw [cleared]
      exact kept.keep fun _ standard => standard

theorem afterAll_counted (calls : List FileCall) {files : Files} (kept : files.table.Kept) :
    (afterAll calls files).table.Kept
      ∧ files.table.Counted (handlesAll calls files) (afterAll calls files).table := by
  induction calls generalizing files with
  | nil => exact ⟨kept, rfl, rfl, rfl⟩
  | cons call rest ih =>
      have step := outcome kept call
      obtain ⟨reached, counted⟩ := ih (step.kept kept)
      exact ⟨reached, step.counted.trans counted⟩

/-- A call that closes files closes all but those that `keeps` gives. -/
inductive Closes : FileCall → (FileId → Bool) → Prop
  | one (id : FileId) (ordinary : id.isStandard = false) : Closes (.close id) (· != id)
  | all : Closes .closeAll FileId.isStandard

/-- What a call may do to the files that are open, and to the handles that were given out. -/
structure Orderly (call : FileCall) (files : Files) : Prop where
  lastId : files.table.lastId ≤ (call.after files).table.lastId
  /-- A handle that was given out has the file that it had before, or none; only its reopening
  gives it another one. -/
  attached : ∀ id label, id.number ≤ files.table.lastId → (∀ mode name, call ≠ .reopen id mode name) →
    (call.after files).table.label? id = some label → files.table.label? id = some label
  closing : ∀ keeps, call.Closes keeps → files.table.Pruned keeps (call.after files).table
  removal : ∀ id, files.table.isOpen id = true → (call.after files).table.isOpen id = false →
    (∃ keeps, call.Closes keeps ∧ keeps id = false)
      ∨ ∃ mode name error, call = .reopen id mode name ∧ (call.perform files).1 = .error error
          ∧ files.table.Pruned (· != id) (call.after files).table
  /-- Files that stay open keep their order, and all others stand behind them. -/
  order : ∃ behind, (call.after files).table.ids
    = (files.table.ids.filter fun id => (call.after files).table.isOpen id) ++ behind

section Orderly

variable {files : Files} {call : FileCall}

theorem Closes.pruned {keeps : FileId → Bool} (closes : call.Closes keeps) (files : Files) :
    files.table.Pruned keeps (call.after files).table := by
  cases closes with
  | one id ordinary =>
      rw [after_close, Files.close_table ordinary]
      exact files.table.keep_pruned _
  | all =>
      rw [after_closeAll, Files.closeAll_table]
      exact files.table.keep_pruned _

/-- A call that does not put files behind the others takes files away. -/
theorem Outcome.grows_or_prunes {before after : FileTable} {answer : Except FileError (Option FileId)}
    {ids : List FileId} (outcome : Outcome before after call answer ids) :
    (∃ behind, after.ids = before.ids ++ behind)
      ∨ ∃ keeps, after = before.keep keeps
          ∧ (call.Closes keeps ∨ ∃ id mode name error,
              call = .reopen id mode name ∧ answer = .error error ∧ keeps = (· != id)) := by
  cases outcome with
  | enters entered => exact .inl ⟨_, entered.ids⟩
  | replaces replaced => exact .inl ⟨[], by rw [replaced.ids, List.append_nil]⟩
  | reattaches reattached => exact .inl ⟨_, reattached.ids⟩
  | @drops id mode name error _ removed =>
      exact .inr ⟨(· != id), removed, .inr ⟨id, mode, name, error, rfl, rfl, rfl⟩⟩
  | @closes id _ ordinary removed => exact .inr ⟨(· != id), removed, .inl (.one id ordinary)⟩
  | clears cleared => exact .inr ⟨_, cleared, .inl .all⟩

/-- A label behind a handle that was given out before, and that is not reopened, stood there before. -/
theorem Outcome.label_before {before after : FileTable} {answer : Except FileError (Option FileId)}
    {ids : List FileId} (outcome : Outcome before after call answer ids)
    {label : FileId × String × Mode × Option NodeId} (given : label.1.number ≤ before.lastId)
    (other : ∀ mode name, call ≠ .reopen label.1 mode name) (present : label ∈ after.labels) :
    label ∈ before.labels := by
  cases outcome with
  | enters entered =>
      obtain ⟨added, labels, new⟩ := entered.labels
      rw [labels, List.mem_append] at present
      refine present.resolve_right fun late => ?_
      have member : label.1 ∈ ids := new ▸ List.mem_map_of_mem late
      exact Nat.not_lt_of_le given (entered.lt_of_mem member)
  | replaces replaced =>
      obtain ⟨taken, own, labels⟩ := replaced.labels
      rw [labels, List.mem_map] at present
      obtain ⟨old, member, rfl⟩ := present
      split at other
      · exact absurd (by rw [own]) (other _ _)
      · rwa [if_neg (by assumption)]
  | reattaches reattached =>
      obtain ⟨taken, own, labels⟩ := reattached.labels
      rw [labels, List.mem_append, List.mem_singleton] at present
      refine present.resolve_right ?_
      rintro rfl
      exact other _ _ (by rw [own])
  | drops _ removed | closes _ removed =>
      rw [removed] at present
      exact List.map_subset _ (List.filter_subset_self _) present
  | clears cleared =>
      rw [cleared] at present
      exact List.map_subset _ (List.filter_subset_self _) present

theorem orderly (kept : files.table.Kept) (call : FileCall) : call.Orderly files where
  lastId := by
    rw [(outcome kept call).counted.lastId]
    exact Nat.le_add_right _ _
  attached := by
    intro id label given other found
    rw [((outcome kept call).kept kept).label?_eq_some_iff] at found
    obtain ⟨present, rfl⟩ := found
    rw [kept.label?_eq_some_iff]
    exact ⟨(outcome kept call).label_before given other present, rfl⟩
  closing := fun keeps closes => closes.pruned files
  removal := by
    intro id opened gone
    rw [FileTable.isOpen_iff] at opened
    rw [Bool.eq_false_iff, Ne, FileTable.isOpen_iff] at gone
    obtain ⟨behind, ids⟩ | ⟨keeps, reached, cause⟩ := (outcome kept call).grows_or_prunes
    · rw [ids] at gone
      exact absurd (List.mem_append_left _ opened) gone
    · rw [reached, FileTable.ids_keep, List.mem_filter] at gone
      have dropped : keeps id = false := by simpa [opened] using gone
      obtain closes | ⟨other, mode, name, error, rfl, failed, rfl⟩ := cause
      · exact .inl ⟨keeps, closes, dropped⟩
      · obtain rfl : id = other := by simpa using dropped
        refine .inr ⟨mode, name, error, rfl, failed, ?_⟩
        rw [reached]
        exact files.table.keep_pruned _
  order := by
    obtain ⟨behind, ids⟩ | ⟨keeps, reached, _⟩ := (outcome kept call).grows_or_prunes
    · refine ⟨behind, ?_⟩
      rw [ids, List.filter_eq_self.mpr]
      intro id present
      rw [FileTable.isOpen_iff, ids]
      exact List.mem_append_left _ present
    · refine ⟨[], ?_⟩
      rw [List.append_nil, reached, FileTable.ids_keep]
      apply List.filter_congr
      intro id present
      rw [Bool.eq_iff_iff, FileTable.isOpen_iff, FileTable.ids_keep, List.mem_filter]
      exact (and_iff_right present).symm

end Orderly

end FileCall

namespace Files

theorem new_standard_kept (host : Host) (maxFiles readChunk : Nat) :
    (new host maxFiles readChunk false).table.Kept := by
  have ids : (new host maxFiles readChunk false).table.ids = [.stdin, .stdout, .stderr] := rfl
  constructor
  case standard =>
    rintro ⟨number⟩ standard
    have low : number ≤ 2 := by simpa [FileId.isStandard] using standard
    have cases : number = 0 ∨ number = 1 ∨ number = 2 := by omega
    rw [ids]
    rcases cases with rfl | rfl | rfl <;> decide
  case bounded =>
    rw [ids]
    show ∀ id : FileId, id ∈ _ → id.number ≤ 2
    decide
  case distinct =>
    rw [ids]
    decide
  case room => exact Nat.le_max_right maxFiles 3

theorem new_counted (host : Host) (maxFiles readChunk : Nat) (adopt : Bool) :
    let table := (new host maxFiles readChunk adopt).table
    table.Kept ∧ table.maxFiles = max maxFiles 3
      ∧ table.ids.map FileId.number = List.range (table.lastId + 1) := by
  have kept := new_standard_kept host maxFiles readChunk
  cases adopt with
  | false => exact ⟨kept, rfl, rfl⟩
  | true =>
      obtain ⟨ids, entered⟩ := (new host maxFiles readChunk false).adoptInherited_entered
      refine ⟨entered.kept kept, entered.limit, ?_⟩
      have all : (new host maxFiles readChunk true).table.ids
          = (new host maxFiles readChunk false).table.ids ++ ids := entered.ids
      rw [all]
      exact entered.range rfl

end Files

namespace FileCall

variable (host : Host) (maxFiles readChunk : Nat) (adopt : Bool) (calls : List FileCall)

/-- The handles of a run, those of the configuration's files first, are the numbers up to the last one. -/
theorem given_numbers :
    let start := Files.new host maxFiles readChunk adopt
    (start.table.ids ++ handlesAll calls start).map FileId.number
      = List.range ((afterAll calls start).table.lastId + 1) := by
  intro start
  obtain ⟨kept, _, first⟩ := Files.new_counted host maxFiles readChunk adopt
  exact (afterAll_counted calls kept).2.range first

/-- Handles fit words of 32 bits in a run that gives out no more of them than there are words. -/
theorem handles_are_words :
    let start := Files.new host maxFiles readChunk adopt
    let given := start.table.ids ++ handlesAll calls start
    given.length ≤ UInt32.size →
      (afterAll calls start).table.lastId < UInt32.size
        ∧ ∀ id ∈ given, id.number < UInt32.size := by
  intro start given few
  have numbers := given_numbers host maxFiles readChunk adopt calls
  have count : given.length = (afterAll calls start).table.lastId + 1 := by
    rw [← List.length_map FileId.number, numbers, List.length_range]
  rw [count] at few
  refine ⟨few, fun id listed => ?_⟩
  have below : id.number ∈ List.range ((afterAll calls start).table.lastId + 1) := by
    rw [← numbers]
    exact List.mem_map_of_mem listed
  exact Nat.lt_of_lt_of_le (List.mem_range.mp below) few

end FileCall

/-- In every state of every run the table is sound, and whatever is called next does no more than a
call may. The handles of the run, those of the configuration's files first, are given out in
increasing order, and the last one is counted. -/
theorem file_table_over_runs (host : Host) (maxFiles readChunk : Nat) (adopt : Bool)
    (calls : List FileCall) :
    let start := Files.new host maxFiles readChunk adopt
    let files := FileCall.afterAll calls start
    let given := start.table.ids ++ FileCall.handlesAll calls start
    files.table.Sound (max maxFiles 3)
      ∧ given.Pairwise (fun earlier later => earlier.number < later.number)
      ∧ given.length = files.table.lastId + 1
      ∧ ∀ call : FileCall, call.Orderly files := by
  intro start files given
  obtain ⟨kept, limit, _⟩ := Files.new_counted host maxFiles readChunk adopt
  obtain ⟨reached, counted⟩ := FileCall.afterAll_counted calls kept
  have numbers := FileCall.given_numbers host maxFiles readChunk adopt calls
  refine ⟨?_, ?_, ?_, FileCall.orderly reached⟩
  · rw [← limit, ← counted.limit]
    exact reached.sound
  · have increasing : (given.map FileId.number).Pairwise (· < ·) := by
      rw [numbers]
      exact List.pairwise_lt_range
    exact List.pairwise_map.mp increasing
  · rw [← List.length_map FileId.number, numbers, List.length_range]

end Calculator
