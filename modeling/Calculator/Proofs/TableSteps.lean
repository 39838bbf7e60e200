import Calculator.Proofs.FileTableRun

/-!
# The steps of a file table

Whatever is called, the table changes only in a few ways: a transfer is run on one of its entries, the
host changes, a new entry with an idle stream comes in or takes the place of another, or an entry goes.
What each of these steps keeps, every call keeps, whichever way it ends.
-/

namespace Calculator

open Relation (ReflTransGen)

namespace Files

open Effect (Always)

variable {id : FileId} {α β : Type}

/-- All that happens to a file table and its host, one thing at a time. -/
inductive Step : Files → Files → Prop
  | ran {id : FileId} {before after : Files} (ran : Ran id true before after) : Step before after
  | hosted (files : Files) (host : Host) : Step files { files with host }
  | entered (files : Files) (id : FileId) (descriptor : DescriptorId) (name : String) (mode : Mode)
      (lastId : Nat) :
      Step files { files with
        table := { files.table.append (newEntry files.host id descriptor name mode true) with lastId } }
  | replaced (files : Files) (id : FileId) (descriptor : DescriptorId) (name : String) (mode : Mode) :
      Step files { files with
        table := files.table.update id fun _ => newEntry files.host id descriptor name mode true }
  | dropped (files : Files) (id : FileId) : Step files { files with table := files.table.remove id }

abbrev Path : Files → Files → Prop :=
  ReflTransGen Step

theorem Path.keeps {holds : Files → Prop}
    (kept : ∀ before after, Step before after → holds before → holds after) {first last : Files} (path : Path first last) (begun : holds first) : holds last := by
  induction path with
  | refl => exact begun
  | tail _ stepped ih => exact kept _ _ stepped ih

/-- A relation that is kept by all that a call does: the transfers on the entries of the table, the host
when it opens a file, an entry that comes in, takes the place of another or goes, and the flush of one
that is gone. -/
structure Stepwise (kept : Files → Files → Prop) : Prop extends Chain kept where
  ran : ∀ {id : FileId} {before after : Files}, Ran id true before after → kept before after
  opens : ∀ (files : Files) (name : String) (request : OpenRequest),
    kept files { files with host := (files.host.openName name request).2 }
  entered : ∀ (files : Files) (id : FileId) (descriptor : DescriptorId) (name : String) (mode : Mode)
    (lastId : Nat),
    kept files { files with
      table := { files.table.append (newEntry files.host id descriptor name mode true) with lastId } }
  replaced : ∀ (files : Files) (id : FileId) (descriptor : DescriptorId) (name : String) (mode : Mode),
    kept files { files with
      table := files.table.update id fun _ => newEntry files.host id descriptor name mode true }
  dropped : ∀ (files : Files) (id : FileId), kept files (files.without id)
  flushed : ∀ (files : Files) (stream : Stream),
    kept files { files with host := (Transfer.flush { stream, host := files.host }).2.host }

theorem path_stepwise : Stepwise Path where
  toChain := path_chain Step
  ran := fun ran => .single (.ran ran)
  opens := fun files _ _ => .single (.hosted files _)
  entered := fun files id descriptor name mode lastId =>
    .single (.entered files id descriptor name mode lastId)
  replaced := fun files id descriptor name mode => .single (.replaced files id descriptor name mode)
  dropped := fun files id => .single (.dropped files id)
  flushed := fun files _ => .single (.hosted files _)

section Stepwise

variable {kept : Files → Files → Prop} (stepwise : Stepwise kept)

include stepwise

theorem Stepwise.served {writing : Bool} {before after : Files} (served : Served id writing before after) :
    kept before after := by
  refine stepwise.along ?_ served
  rintro _ _ ⟨found, serves⟩
  cases writing with
  | true => exact stepwise.ran (.on found serves)
  | false => exact stepwise.ran (.on found serves.writing)

theorem Stepwise.visited {before after : Files} (visited : Visited before after) : kept before after := by
  refine stepwise.along ?_ visited
  rintro _ _ ⟨id, found, serves⟩
  exact stepwise.ran (.on found serves.writing)

theorem adoptInherited_stepwise (files : Files) : kept files files.adoptInherited := by
  refine List.foldlRecOn (motive := (kept files ·)) files.host.inherited _ (stepwise.refl files) ?_
  intro later reached inheritance _
  split
  · exact reached
  · exact stepwise.trans _ _ _ reached (stepwise.entered later _ _ _ _ _)

theorem parseMode_stepwise (text : String) : Always kept (parseMode text) := by
  intro files
  rw [parseMode_run]
  exact stepwise.refl files

theorem requireRoom_stepwise : Always kept requireRoom := by
  intro files
  rw [requireRoom_run]
  exact stepwise.refl files

theorem openFile_stepwise (name mode : String) : Always kept (openFile name mode) := by
  refine Always.bind stepwise.trans (parseMode_stepwise stepwise mode) fun taken =>
    Always.bind stepwise.trans (requireRoom_stepwise stepwise) fun _ =>
      Always.bind stepwise.trans (fun files => stepwise.opens files name _) fun descriptor => ?_
  exact fun files => stepwise.entered files _ descriptor name taken _

theorem openFirst_stepwise (mode : Mode) (failure : FileError) (candidates : List String) :
    Always kept (openFirst mode failure candidates) := by
  induction candidates generalizing failure with
  | nil => exact Always.throw stepwise.refl _
  | cons candidate rest ih =>
      intro files
      unfold openFirst
      rw [Effect.get_bind_run]
      have opens := stepwise.opens files candidate mode.request
      rcases opened : files.host.openName candidate mode.request with ⟨answer, host⟩
      rw [opened] at opens
      cases answer with
      | ok descriptor =>
          exact stepwise.trans _ _ _ opens (stepwise.entered _ _ descriptor candidate mode _)
      | error fault => exact stepwise.trans _ _ _ opens (ih (.host fault) _)

theorem openAlong_stepwise (name mode path : String) : Always kept (openAlong name mode path) := by
  refine Always.bind stepwise.trans (parseMode_stepwise stepwise mode) fun taken =>
    Always.bind stepwise.trans (requireRoom_stepwise stepwise) fun _ => ?_
  dsimp only
  split
  · exact openFile_stepwise stepwise name mode
  · exact Always.get_bind fun files => openFirst_stepwise stepwise taken _ _

theorem close_stepwise (id : FileId) : Always kept (close id) := by
  intro files
  cases standard : id.isStandard with
  | true =>
      rw [close_standard standard]
      exact stepwise.refl files
  | false =>
      cases found : files.table.find? id with
      | none =>
          have missed : (close id files).2 = files := by
            unfold close
            rw [if_neg (by simp [standard])]
            exact congrArg Prod.snd (Effect.bind_error (entry_missing found))
          rw [missed]
          exact stepwise.refl files
      | some entry =>
          have table := close_table standard files
          rw [close_files found standard] at table ⊢
          have dropped := stepwise.dropped files id
          cases writing : entry.mode.writing with
          | false => exact dropped
          | true =>
              rw [writing, if_pos rfl] at table
              have left : (run entry Transfer.flush (files.without id)).2
                  = { files.without id with
                      host := (Transfer.flush { stream := entry.stream, host := files.host }).2.host } := by
                rw [run_files] at table ⊢
                exact congrArg (Files.mk · _) table
              rw [if_pos rfl, left]
              exact stepwise.trans _ _ _ dropped (stepwise.flushed (files.without id) entry.stream)

theorem closeAll_stepwise : Always kept closeAll := by
  intro files
  have closed : (closeAll files).2
      = (files.table.ids.filter fun id => !id.isStandard).foldl (fun files id => (close id files).2)
          files := forAll_files close _ files
  rw [closed]
  refine List.foldlRecOn (motive := (kept files ·)) _ _ (stepwise.refl files) ?_
  intro later reached id _
  exact stepwise.trans _ _ _ reached (close_stepwise stepwise id later)

theorem swap_stepwise (id : FileId) (path : String) (mode : Mode) :
    Always kept (swap id path mode) := by
  intro files
  rw [swap_run]
  have opens := stepwise.opens files path mode.request
  rcases opened : files.host.openName path mode.request with ⟨answer, host⟩
  rw [opened] at opens
  cases answer with
  | ok descriptor => exact stepwise.trans _ _ _ opens (stepwise.replaced _ id descriptor path mode)
  | error fault => exact stepwise.trans _ _ _ opens (stepwise.dropped _ id)

theorem attach_stepwise (id : FileId) (path : String) (mode : Mode) :
    Always kept (putBack id path mode) := by
  refine Always.bind stepwise.trans (requireRoom_stepwise stepwise) fun _ =>
    Always.bind stepwise.trans (fun files => stepwise.opens files path _) fun descriptor => ?_
  exact fun files => stepwise.entered files id descriptor path mode files.table.lastId

theorem reopen_stepwise (id : FileId) (mode : String) (name : Option String) :
    Always kept (reopen id mode name) := by
  unfold reopen
  dsimp only
  split
  · exact Always.throw stepwise.refl _
  · refine Always.bind stepwise.trans (parseMode_stepwise stepwise mode) fun taken files => ?_
    rw [Effect.get_bind_run]
    cases found : files.table.find? id with
    | none =>
        dsimp only
        split
        · refine Always.get_bind (fun later => ?_) files
          split
          · exact Always.throw stepwise.refl _
          · exact attach_stepwise stepwise id _ taken
        · exact stepwise.refl files
    | some entry =>
        dsimp only
        split
        · have flushes : kept files (run entry Transfer.flush files).2 :=
            stepwise.ran (.on found .flush)
          rcases ran : run entry Transfer.flush files with ⟨answer, between⟩
          rw [ran] at flushes
          cases answer with
          | error fault =>
              rw [Effect.bind_error ran]
              exact flushes
          | ok _ =>
              rw [Effect.bind_ok ran]
              exact stepwise.trans _ _ _ flushes (swap_stepwise stepwise id _ taken between)
        · exact swap_stepwise stepwise id _ taken files

end Stepwise

theorem Served.path {writing : Bool} {before after : Files} (served : Served id writing before after) :
    Path before after :=
  path_stepwise.served served

theorem new_path (host : Host) (maxFiles readChunk : Nat) (adopt : Bool) :
    Path (Files.new host maxFiles readChunk false) (Files.new host maxFiles readChunk adopt) := by
  cases adopt with
  | false => exact .refl
  | true => exact adoptInherited_stepwise path_stepwise _

end Files

namespace FileCall

open Effect (Always)

/-- What is kept stepwise is kept by every call, if it is by what happens to the host elsewhere. -/
theorem after_stepwise {kept : Files → Files → Prop} (stepwise : Files.Stepwise kept) (call : FileCall)
    (files : Files) (elsewhere : ∀ host, call = .elsewhere host → kept files { files with host }) :
    kept files (call.after files) := by
  have answered {α β : Type} {program : FileM α} (always : Always kept program) (answer : α → β) :
      kept files ((do return answer (← program) : FileM β) files).2 :=
    Files.map_always stepwise.toChain always answer files
  cases call with
  | openFile name mode => exact answered (Files.openFile_stepwise stepwise name mode) _
  | openAlong name mode path => exact answered (Files.openAlong_stepwise stepwise name mode path) _
  | reopen id mode name => exact answered (Files.reopen_stepwise stepwise id mode name) _
  | close id => exact answered (Files.close_stepwise stepwise id) _
  | closeAll => exact answered (Files.closeAll_stepwise stepwise) _
  | adoptInherited => exact Files.adoptInherited_stepwise stepwise files
  | ask request =>
      exact answered (fun before => stepwise.served (Files.perform_served request before)) _
  | flushAll => exact answered (fun before => stepwise.visited (Files.flushAll_visited before)) _
  | rewindAll => exact answered (fun before => stepwise.visited (Files.rewindAll_visited before)) _
  | isFailed id =>
      exact answered ((Files.entry_looks id).always stepwise.toChain
        fun before _ _ _ => stepwise.refl before) _
  | isTerminal id => exact stepwise.refl files
  | node id =>
      exact answered ((Files.entry_looks id).always stepwise.toChain
        fun before _ _ _ => stepwise.refl before) _
  | elsewhere host => exact elsewhere host rfl

theorem after_path (call : FileCall) (files : Files) : Files.Path files (call.after files) :=
  call.after_stepwise Files.path_stepwise files fun host _ => .single (.hosted files host)

theorem afterAll_keeps {holds : Files → Prop}
    (kept : ∀ before after, Files.Step before after → holds before → holds after)
    (calls : List FileCall) {files : Files} (begun : holds files) : holds (afterAll calls files) := by
  refine List.foldlRecOn calls _ begun ?_
  intro later reached call _
  exact Files.Path.keeps kept (call.after_path later) reached

end FileCall

namespace Files

def Each (holds : Stream → Prop) (files : Files) : Prop :=
  ∀ entry ∈ files.table.entries, holds entry.stream

section Each

variable {holds : Stream → Prop} {files : Files} {id : FileId} {entry : Entry}

theorem Each.found (each : files.Each holds) (found : files.table.find? id = some entry) :
    holds entry.stream :=
  each entry (FileTable.mem_of_find? found)

theorem Each.update (each : files.Each holds) (changed : FileId) {change : Entry → Entry}
    (kept : ∀ entry, holds (change entry).stream) (host : Host) :
    Each holds { table := files.table.update changed change, host } := by
  intro entry present
  obtain ⟨former, before, rfl⟩ := List.mem_map.mp present
  split
  · exact kept former
  · exact each former before

variable (fresh : ∀ descriptor buffered, holds (Stream.new descriptor buffered))
  (served : ∀ {entry : Entry} {α : Type} {transfer : Transfer α}, entry.Serves true transfer →
    holds entry.stream → ∀ host, holds (transfer { stream := entry.stream, host }).2.stream)

include fresh served

theorem Step.each {before after : Files} (step : Step before after) (each : before.Each holds) :
    after.Each holds := by
  cases step with
  | ran ran =>
      obtain ⟨found, serves⟩ := ran
      have left := served serves (each.found found) before.host
      exact each.update _ (fun _ => left) _
  | hosted _ _ => exact each
  | entered _ _ descriptor _ _ _ =>
      intro entry present
      rcases List.mem_append.mp present with old | new
      · exact each entry old
      · rw [List.mem_singleton.mp new]
        exact fresh descriptor true
  | replaced _ id descriptor _ _ => exact each.update id (fun _ => fresh descriptor true) _
  | dropped _ id => exact fun entry present => each entry (List.mem_filter.mp present).1

theorem Path.each {first last : Files} (path : Path first last) (each : first.Each holds) :
    last.Each holds :=
  path.keeps (fun _ _ step => step.each fresh served) each

theorem each_over_runs (host : Host) (maxFiles readChunk : Nat) (adopt : Bool)
    (calls : List FileCall) :
    (FileCall.afterAll calls (Files.new host maxFiles readChunk adopt)).Each holds := by
  have standard : (Files.new host maxFiles readChunk false).Each holds := by
    intro entry present
    change entry ∈ Files.standardEntries host at present
    simp only [standardEntries, List.mem_cons, List.not_mem_nil, or_false] at present
    rcases present with rfl | rfl | rfl <;> exact fresh _ _
  exact FileCall.afterAll_keeps (fun _ _ step => step.each fresh served) calls
    ((new_path host maxFiles readChunk adopt).each fresh served standard)

end Each

end Files

end Calculator
