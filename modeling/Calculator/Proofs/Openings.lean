import Calculator.Proofs.FileTableRun

/-!
# Files that were just opened

A call that answers a handle has opened a file under it: a file of its own descriptor, which stands at
the start of a node and appends where the mode says so, and with nothing in its buffers. The standard
streams are never opened.
-/

namespace Calculator

namespace Host

variable {host after : Host} {id : DescriptorId} {request : OpenRequest}

/-- The descriptor stands at the start of a node and appends where the request says so. A file is empty
where the request empties it. -/
def Fresh (host : Host) (id : DescriptorId) (request : OpenRequest) : Prop :=
  ∃ node, host.descriptors[id]? = some { node, offset := 0, appends := request.append }
    ∧ (request.truncate = true → ∀ content, host.nodes[node]? = some (.file content) →
      content = Content.empty)

theorem attach_fresh {node : NodeId}
    (emptied : request.truncate = true → ∀ content, host.nodes[node]? = some (.file content) →
      content = Content.empty) :
    (host.attach node request.append).2.Fresh (host.attach node request.append).1 request :=
  ⟨node, List.getElem?_concat_length, emptied⟩

theorem openNode_fresh {node : NodeId} (opened : host.openNode node request = (.ok id, after)) :
    after.Fresh id request := by
  unfold openNode at opened
  split at opened
  · cases opened
  · cases opened
    apply attach_fresh
    intro truncates content present
    rw [if_pos truncates] at present
    split at present
    · rename_i former
      have inside := (List.getElem?_eq_some_iff.mp former).1
      have emptied : (host.setNode node (.file Content.empty)).nodes[node]?
          = some (.file Content.empty) := List.getElem?_set_self inside
      rw [emptied] at present
      cases present
      rfl
    · rename_i unlike
      exact (unlike content present).elim

theorem openLast_fresh {directory : NodeId} {last : String} {slash : Bool}
    (opened : host.openLast directory last slash request = (.ok id, after)) : after.Fresh id request := by
  unfold openLast at opened
  dsimp only at opened
  split at opened
  · cases opened
  split at opened
  · cases opened
  split at opened
  · split at opened
    · cases opened
    · exact openNode_fresh opened
  · split at opened
    · exact openNode_fresh opened
    · cases opened
  · cases opened

theorem openName_fresh {name : String} (opened : host.openName name request = (.ok id, after)) :
    after.Fresh id request := by
  unfold openName at opened
  split at opened
  · cases opened
  split at opened
  · exact openNode_fresh opened
  split at opened
  · cases opened
  · exact openLast_fresh opened

end Host

namespace FileTable

variable {table : FileTable} {id : FileId} {entry : Entry}

theorem find?_append (missing : table.find? entry.id = none) :
    (table.append entry).find? entry.id = some entry := by
  rw [find?] at missing
  rw [find?, append, List.find?_append, missing, Option.none_or]
  simp

theorem find?_update (found : table.find? id = some entry) {next : Entry} (own : next.id = id) :
    (table.update id fun _ => next).find? id = some next := by
  rw [find?_update_eq table id id fun _ _ => own, if_pos rfl, found]
  rfl

theorem Kept.standard_le (kept : table.Kept) : 2 ≤ table.lastId :=
  kept.bounded .stderr (kept.standard .stderr rfl)

theorem Kept.next_missing (kept : table.Kept) : table.find? ⟨table.lastId + 1⟩ = none := by
  rw [find?_none_iff]
  intro present
  have given := kept.bounded _ present
  exact Nat.not_succ_le_self _ given

end FileTable

namespace Files

open Effect (Ensures)

variable {files : Files} {id : FileId} {α : Type}

/-- The file of `id` was opened through a descriptor of its own, and nothing was done with it. -/
structure JustOpened (files : Files) (id : FileId) : Prop where
  ordinary : id.isStandard = false
  opened : ∃ descriptor name mode,
    files.table.find? id = some (newEntry files.host id descriptor name mode true)
      ∧ files.host.Fresh descriptor mode.request

theorem enter_opened (kept : files.table.Kept) {descriptor : DescriptorId} {mode : Mode}
    (fresh : files.host.Fresh descriptor mode.request) (name : String) :
    (files.enter descriptor name mode).2.JustOpened (files.enter descriptor name mode).1 where
  ordinary := by
    have standard := kept.standard_le
    show decide (files.table.lastId + 1 ≤ 2) = false
    exact decide_eq_false (by omega)
  opened := by
    have missing : files.table.find?
        (newEntry files.host ⟨files.table.lastId + 1⟩ descriptor name mode true).id = none :=
      kept.next_missing
    exact ⟨descriptor, name, mode, FileTable.find?_append missing, fresh⟩

theorem ensures_of_same {first : Files → Prop} {program : FileM α} {answer : Files → Except FileError α}
    (ran : ∀ files, program files = (answer files, files)) :
    Ensures first (fun _ => True) program fun _ => first := by
  intro files begun
  rw [ran]
  exact ⟨trivial, fun _ _ => begun⟩

theorem parseMode_ensures {first : Files → Prop} (text : String) :
    Ensures first (fun _ => True) (parseMode text) fun _ => first :=
  ensures_of_same (parseMode_run text)

theorem requireRoom_ensures {first : Files → Prop} :
    Ensures first (fun _ => True) requireRoom fun _ => first :=
  ensures_of_same requireRoom_run

theorem openName_ensures (held : FileTable → Prop) (name : String) (request : OpenRequest) :
    Ensures (fun files => held files.table) (fun _ => True)
      (Files.request fun host => host.openName name request)
      fun descriptor files => held files.table ∧ files.host.Fresh descriptor request := by
  intro files begun
  refine ⟨trivial, ?_⟩
  intro descriptor answered
  rw [request_run] at answered ⊢
  rcases asked : files.host.openName name request with ⟨answer, host⟩
  rw [asked] at answered
  cases answer with
  | error fault => cases answered
  | ok opened =>
      cases answered
      exact ⟨begun, Host.openName_fresh asked⟩

theorem openFile_ensures (name mode : String) :
    Ensures (fun files => files.table.Kept) (fun _ => True) (openFile name mode)
      fun id files => files.JustOpened id := by
  refine (parseMode_ensures mode).bind fun taken => requireRoom_ensures.bind fun _ =>
    (openName_ensures FileTable.Kept name taken.request).bind fun descriptor => ?_
  rintro files ⟨kept, fresh⟩
  refine ⟨trivial, ?_⟩
  intro id answered
  cases answered
  exact enter_opened kept fresh name

theorem openFirst_ensures (mode : Mode) (failure : FileError) (candidates : List String) :
    Ensures (fun files => files.table.Kept) (fun _ => True) (openFirst mode failure candidates)
      fun id files => files.JustOpened id := by
  induction candidates generalizing failure with
  | nil => exact Ensures.throw (fun _ _ => trivial) failure
  | cons candidate rest ih =>
      intro files kept
      refine ⟨trivial, ?_⟩
      unfold openFirst
      rw [Effect.get_bind_run]
      rcases asked : files.host.openName candidate mode.request with ⟨answer, host⟩
      cases answer with
      | ok descriptor =>
          intro id answered
          cases answered
          exact @enter_opened { files with host } kept descriptor mode (Host.openName_fresh asked)
            candidate
      | error fault => exact (ih (.host fault) { files with host } kept).2

theorem openAlong_ensures (name mode path : String) :
    Ensures (fun files => files.table.Kept) (fun _ => True) (openAlong name mode path)
      fun id files => files.JustOpened id := by
  refine (parseMode_ensures mode).bind fun taken => requireRoom_ensures.bind fun _ => ?_
  dsimp only
  split
  · exact openFile_ensures name mode
  · exact Ensures.get_bind fun files kept =>
      (openFirst_ensures taken _ _).weaken (fun _ same => same ▸ kept) fun _ _ opened => opened

theorem swap_ensures (ordinary : id.isStandard = false) (path : String) (mode : Mode) :
    Ensures (fun files => ∃ entry, files.table.find? id = some entry) (fun _ => True) (swap id path mode)
      fun id files => files.JustOpened id := by
  rintro files ⟨entry, found⟩
  refine ⟨trivial, ?_⟩
  rw [swap_run]
  rcases asked : files.host.openName path mode.request with ⟨answer, host⟩
  cases answer with
  | error fault =>
      intro other answered
      cases answered
  | ok descriptor =>
      intro other answered
      cases answered
      exact ⟨ordinary, descriptor, path, mode, FileTable.find?_update found rfl,
        Host.openName_fresh asked⟩

theorem attach_ensures (ordinary : id.isStandard = false) (path : String) (mode : Mode) :
    Ensures (fun files => files.table.find? id = none) (fun _ => True) (putBack id path mode)
      fun id files => files.JustOpened id := by
  refine requireRoom_ensures.bind fun _ =>
    (openName_ensures (fun table => table.find? id = none) path mode.request).bind fun descriptor => ?_
  rintro files ⟨missing, fresh⟩
  refine ⟨trivial, ?_⟩
  intro other answered
  cases answered
  have unused : files.table.find? (newEntry files.host id descriptor path mode true).id = none := missing
  exact ⟨ordinary, descriptor, path, mode, FileTable.find?_append unused, fresh⟩

theorem reopen_ensures (id : FileId) (mode : String) (name : Option String) :
    Ensures (fun _ => True) (fun _ => True) (reopen id mode name)
      fun id files => files.JustOpened id := by
  have refuses {β : Type} {first : Files → Prop} (error : FileError) (next : β → FileM FileId) :
      Ensures first (fun _ => True) ((throw error : FileM β) >>= next)
        fun id files => files.JustOpened id :=
    Ensures.throw (fun _ _ => trivial) error
  unfold reopen
  dsimp only
  split
  · exact refuses _ _
  · rename_i standard
    have ordinary : id.isStandard = false := by simpa using standard
    refine (parseMode_ensures mode).bind fun taken => Ensures.get_bind fun files _ => ?_
    split
    · rename_i entry found
      have swaps := swap_ensures ordinary (name.getD entry.name) taken
      split
      · refine Ensures.bind ?_ fun _ => swaps
        rintro files rfl
        refine ⟨trivial, fun _ _ => ?_⟩
        rw [run_files, FileTable.id_of_find? found]
        exact ⟨_, FileTable.find?_setStream_self found _⟩
      · exact swaps.weaken (fun _ same => same ▸ ⟨entry, found⟩) fun _ _ opened => opened
    · rename_i missing
      split
      · rename_i path
        have attaches := attach_ensures ordinary path taken
        refine Ensures.get_bind fun later same => ?_
        split
        · exact refuses _ _
        · exact attaches.weaken (fun _ also => also ▸ same ▸ missing) fun _ _ opened => opened
      · exact Ensures.throw (fun _ _ => trivial) _

end Files

theorem FileCall.perform_opened {files : Files} {id : FileId} (kept : files.table.Kept) (call : FileCall)
    (answered : (call.perform files).1 = .ok (some id)) : (call.after files).JustOpened id := by
  have opens {program : FileM FileId} {first : Files → Prop}
      (ensures : Effect.Ensures first (fun _ => True) program fun id files => files.JustOpened id)
      (begun : first files)
      (answered : ((do return some (← program) : FileM (Option FileId)) files).1 = .ok (some id)) :
      ((do return some (← program) : FileM (Option FileId)) files).2.JustOpened id := by
    have reached := (ensures files begun).2
    rcases ran : program files with ⟨answer, after⟩
    rw [ran] at reached
    cases answer with
    | error error =>
        rw [Effect.bind_error ran] at answered
        cases answered
    | ok opened =>
        rw [Effect.bind_ok ran] at answered ⊢
        cases answered
        exact reached id rfl
  have silent {α : Type} {program : FileM α}
      (answered : ((do let _ ← program; return none : FileM (Option FileId)) files).1
        = .ok (some id)) : False := by
    obtain ⟨_, _, _, returned⟩ := Effect.steps_of_ok (Effect.run_of_answer answered)
    cases returned
  cases call with
  | openFile name mode => exact opens (Files.openFile_ensures name mode) kept answered
  | openAlong name mode path => exact opens (Files.openAlong_ensures name mode path) kept answered
  | reopen other mode name => exact opens (Files.reopen_ensures other mode name) trivial answered
  | _ => exact (silent answered).elim

end Calculator
