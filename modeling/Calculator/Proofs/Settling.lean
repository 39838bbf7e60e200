import Calculator.Proofs.FileRun

/-!
# Writing output out

Flushing or closing a file, closing all files, or ending the calculator writes the pending output of a
file to the host. Nothing that this does to other files is seen in the file, whatever they are open on
and whether or not their output can be written.
-/

namespace Calculator

namespace Files

variable {files : Files} {home : FileId → NodeId} {handles : List FileId} {plain : PlainFiles}
  {id : FileId} {node : NodeId} {entry : Entry} {shown : PlainEntry}

/-- What happens to the files of other handles than `id`, as the file of `id` in `node` sees it. -/
structure Aside (id : FileId) (node : NodeId) (before after : Files) : Prop where
  same : Host.SameAt node before.host after.host
  found : after.table.find? id = before.table.find? id
  chunk : after.table.readChunk = before.table.readChunk
  kept : after.table.ids.Sublist before.table.ids
  alone : before.Alone id node → after.Alone id node

theorem Aside.refl (id : FileId) (node : NodeId) (files : Files) : Aside id node files files where
  same := Host.SameAt.refl node files.host
  found := rfl
  chunk := rfl
  kept := List.Sublist.refl _
  alone := fun alone => alone

theorem Aside.trans {first second third : Files} (one : Aside id node first second)
    (two : Aside id node second third) : Aside id node first third where
  same := one.same.trans two.same
  found := two.found.trans one.found
  chunk := two.chunk.trans one.chunk
  kept := two.kept.trans one.kept
  alone := fun alone => two.alone (one.alone alone)

theorem Mirrors.aside {after : Files} (mirrors : files.Mirrors home [id] plain)
    (aside : Aside id (home id) files after) : after.Mirrors home [id] plain where
  chunk := by
    rw [aside.chunk]
    exact mirrors.chunk
  distinct := aside.kept.nodup mirrors.distinct
  closed := by
    intro other tracked missing
    cases List.mem_singleton.mp tracked
    rw [aside.found] at missing
    exact mirrors.closed id tracked missing
  shows := by
    intro other tracked entry found
    cases List.mem_singleton.mp tracked
    rw [aside.found] at found
    obtain ⟨shown, visible, shows⟩ := mirrors.shows id tracked entry found
    have own := FileTable.id_of_find? found
    refine ⟨shown, visible, shows.elsewhere aside.same ?_⟩
    have alone := shows.alone
    rw [own] at alone ⊢
    exact aside.alone alone

theorem request_channel {α : Type} (run : Host → DescriptorId → Except Fault α × Host)
    (channel : Channel) :
    (Transfer.request run channel).2.host = (run channel.host channel.stream.descriptor).2
      ∧ (Transfer.request run channel).2.stream.descriptor = channel.stream.descriptor
      ∧ (Transfer.request run channel).2.stream.pending = channel.stream.pending := by
  rw [Transfer.request]
  split <;> rename_i asked <;> simp only [asked, and_self]

theorem flush_channel (channel : Channel) :
    (Transfer.flush channel).2.host
        = (channel.host.write channel.stream.descriptor channel.stream.pending).2
      ∧ (Transfer.flush channel).2.stream.descriptor = channel.stream.descriptor
      ∧ (Transfer.flush channel).2.stream.pending = [] :=
  request_channel (fun host descriptor => host.write descriptor channel.stream.pending)
    { channel with stream := { channel.stream with pending := [] } }

theorem run_files {α : Type} (entry : Entry) (transfer : Transfer α) (files : Files) :
    (run entry transfer files).2
      = { table := files.table.setStream entry.id
            (transfer { stream := entry.stream, host := files.host }).2.stream
          host := (transfer { stream := entry.stream, host := files.host }).2.host } := rfl

/-- A transfer on another file that does nothing to the node is not seen. -/
theorem run_aside {α : Type} {transfer : Transfer α} (differs : entry.id ≠ id)
    (apart : files.host.node? entry.stream.descriptor ≠ some node)
    (same : Host.SameAt node files.host
      (transfer { stream := entry.stream, host := files.host }).2.host)
    (descriptor : (transfer { stream := entry.stream, host := files.host }).2.stream.descriptor
      = entry.stream.descriptor) :
    Aside id node files (run entry transfer files).2 := by
  rw [run_files]
  generalize (transfer { stream := entry.stream, host := files.host }).2 = channel at *
  constructor
  case same => exact same
  case found => exact FileTable.find?_setStream_ne (Ne.symm differs) _
  case chunk => rfl
  case kept =>
    have ids := FileTable.ids_setStream files.table entry.id channel.stream
    exact ids ▸ List.Sublist.refl _
  case alone =>
    intro alone
    apply alone.setStream same.node?
    intro _
    rwa [descriptor]

theorem run_flush_aside (differs : entry.id ≠ id)
    (apart : files.host.node? entry.stream.descriptor ≠ some node) :
    Aside id node files (run entry Transfer.flush files).2 := by
  obtain ⟨host, descriptor, _⟩ := flush_channel { stream := entry.stream, host := files.host }
  refine run_aside differs apart ?_ descriptor
  rw [host]
  exact Host.write_sameAt files.host entry.stream.descriptor entry.stream.pending apart

theorem run_flush_node? (entry : Entry) (files : Files) (descriptor : DescriptorId) :
    (run entry Transfer.flush files).2.host.node? descriptor = files.host.node? descriptor := by
  rw [run_files, (flush_channel { stream := entry.stream, host := files.host }).1]
  have elsewhere : files.host.node? entry.stream.descriptor
      ≠ some ((files.host.node? entry.stream.descriptor).getD 0 + 1) := by
    cases files.host.node? entry.stream.descriptor <;> simp
  exact (Host.write_sameAt files.host entry.stream.descriptor entry.stream.pending elsewhere).node? _

theorem Shows.stores (shows : files.Shows node entry shown) (written : entry.stream.pending = []) :
    files.host.Stores node shown.file.content := by
  obtain ⟨offset, disk, holds, mirrored⟩ := shows.mirrors
  rw [mirrored.content_of_nothing_pending written]
  exact holds.stores

theorem Shows.written (shows : files.Shows node entry shown) (unwritable : entry.mode.writing = false) :
    entry.stream.pending = [] := by
  obtain ⟨offset, disk, holds, mirrored⟩ := shows.mirrors
  apply mirrored.nothing_pending
  intro outward
  have writing := shows.outward (mirrored.direction.trans outward)
  rw [shows.mode, unwritable] at writing
  cases writing

def without (files : Files) (id : FileId) : Files :=
  { files with table := files.table.remove id }

theorem without_alone (alone : files.Alone id node) (removed : FileId) :
    (files.without removed).Alone id node := by
  intro other present
  exact alone other (List.mem_filter.mp present).1

theorem without_aside {other : FileId} (differs : other ≠ id) (node : NodeId) :
    Aside id node files (files.without other) where
  same := Host.SameAt.refl node files.host
  found := by
    rw [without, FileTable.find?, FileTable.remove, List.find?_filter, FileTable.find?]
    congr 1
    funext entry
    by_cases own : entry.id = id
    · simp [own, Ne.symm differs]
    · simp [own]
  chunk := rfl
  kept := List.filter_sublist.map Entry.id
  alone := fun alone => without_alone alone other

theorem close_files (found : files.table.find? id = some entry) (ordinary : id.isStandard = false) :
    (close id files).2
      = if entry.mode.writing then (run entry Transfer.flush (files.without id)).2
        else files.without id := by
  unfold close
  rw [if_neg (by simp [ordinary])]
  refine (congrArg Prod.snd (Effect.bind_ok (entry_found found))).trans ?_
  cases writing : entry.mode.writing with
  | false => cases failed : entry.stream.failed <;> rfl
  | true =>
      refine Effect.bind_state (run entry Transfer.flush) ?_ (files.without id)
      intro _ after
      cases failed : entry.stream.failed <;> rfl

theorem close_aside {other : FileId} (differs : other ≠ id) (alone : files.Alone id node) :
    Aside id node files (close other files).2 := by
  have refl := Aside.refl id node files
  cases standard : other.isStandard with
  | true =>
      unfold close
      rw [if_pos standard]
      exact refl
  | false =>
      cases found : files.table.find? other with
      | none =>
          have refused : (close other files).2 = files := by
            unfold close
            rw [if_neg (by simp [standard])]
            exact congrArg Prod.snd (Effect.bind_error (entry_missing found))
          rwa [refused]
      | some entry =>
          have handle := FileTable.id_of_find? found
          have leaving : Aside id node files (files.without other) := without_aside differs node
          have apart := alone entry (FileTable.mem_of_find? found) (handle ▸ differs)
          rw [close_files found standard]
          split
          · exact leaving.trans (run_flush_aside (handle ▸ differs) apart)
          · exact leaving

theorem flush_aside {other : FileId} (differs : other ≠ id) (alone : files.Alone id node) :
    Aside id node files (flush other files).2 := by
  unfold flush
  cases found : files.table.find? other with
  | none =>
      rw [Effect.bind_error (entry_missing found)]
      exact Aside.refl id node files
  | some entry =>
      have handle := FileTable.id_of_find? found
      rw [Effect.bind_ok (entry_found found)]
      split
      · exact run_flush_aside (handle ▸ differs)
          (alone entry (FileTable.mem_of_find? found) (handle ▸ differs))
      · exact Aside.refl id node files

/-- The first error is the one that is reported, and all operations run whatever fails. -/
theorem forAll_cons (operation : FileId → FileM Unit) (id : FileId) (rest : List FileId)
    (files : Files) :
    forAll operation (id :: rest) files
      = match operation id files with
        | (.ok _, after) => forAll operation rest after
        | (.error error, after) => (.error error, (forAll operation rest after).2) := by
  rw [forAll]
  rcases ran : operation id files with ⟨result, after⟩
  cases result with
  | ok _ =>
      have caught : tryCatch (do operation id; return none)
          (fun error => return some error : FileError → FileM (Option FileError)) files
            = (.ok none, after) := Effect.tryCatch_ok (Effect.bind_ok ran)
      rw [Effect.bind_ok caught]
  | error error =>
      have caught : tryCatch (do operation id; return none)
          (fun error => return some error : FileError → FileM (Option FileError)) files
            = (.ok (some error), after) := Effect.tryCatch_error (Effect.bind_error ran)
      have finished : tryCatch (forAll operation rest) (fun _ => return ()) after
          = (.ok (), (forAll operation rest after).2) := by
        rcases rested : forAll operation rest after with ⟨answer, final⟩
        cases answer with
        | ok _ => exact Effect.tryCatch_ok rested
        | error reason => exact Effect.tryCatch_error rested
      rw [Effect.bind_ok caught]
      exact Effect.bind_ok finished

theorem forAll_files (operation : FileId → FileM Unit) (ids : List FileId) (files : Files) :
    (forAll operation ids files).2 = ids.foldl (fun files id => (operation id files).2) files := by
  induction ids generalizing files with
  | nil => rfl
  | cons id rest ih =>
      rw [List.foldl_cons, ← ih, forAll_cons]
      rcases operation id files with ⟨result, after⟩
      cases result <;> rfl

/-- A file settles when its own turn comes: before it waits as it is, after it stays as it was left. -/
theorem foldl_settles {κ : Type} {turn : Files → κ → Files} (waits settled : Files → Prop)
    {keys : List κ} {own : κ} (distinct : keys.Nodup) (present : own ∈ keys) (start : waits files)
    (waiting : ∀ files, waits files → ∀ other ∈ keys, other ≠ own → waits (turn files other))
    (settles : ∀ files, waits files → settled (turn files own))
    (staying : ∀ files, settled files → ∀ other ∈ keys, other ≠ own → settled (turn files other)) :
    settled (keys.foldl turn files) := by
  obtain ⟨before, after, rfl⟩ := List.append_of_mem present
  rw [List.nodup_append, List.nodup_cons] at distinct
  obtain ⟨_, ⟨later, _⟩, earlier⟩ := distinct
  rw [List.foldl_append, List.foldl_cons]
  have reached : waits (before.foldl turn files) := by
    refine List.foldlRecOn before turn start ?_
    intro files still other turned
    exact waiting files still other (by simp [turned]) (earlier other turned own List.mem_cons_self)
  refine List.foldlRecOn after turn (settles _ reached) ?_
  intro files done other turned
  refine staying files done other (by simp [turned]) ?_
  rintro rfl
  exact later turned

def Settled (files : Files) (id : FileId) (node : NodeId) (content : Bytes) : Prop :=
  files.host.Stores node content ∧ files.Alone id node

theorem Settled.aside {after : Files} {content : Bytes} (settled : files.Settled id node content)
    (aside : Aside id node files after) : after.Settled id node content :=
  ⟨settled.1.sameAt aside.same, aside.alone settled.2⟩

theorem flush_run (found : files.table.find? id = some entry) :
    flush id files
      = if entry.mode.writing && entry.stream.direction != .read then run entry Transfer.flush files
        else (.ok (), files) := by
  unfold flush
  rw [Effect.bind_ok (entry_found found)]
  split <;> rfl

/-- As long as `waits` holds, the file of `id` is alone on its node, and the host stores `content` there
once the output of the file is written. Nothing that happens beside the file ends this. -/
structure Awaits (waits : Files → Prop) (id : FileId) (node : NodeId) (content : Bytes) : Prop where
  distinct : ∀ files, waits files → files.table.ids.Nodup
  alone : ∀ files, waits files → files.Alone id node
  found : ∀ files, waits files → ∃ entry, files.table.find? id = some entry
  aside : ∀ files after, waits files → Aside id node files after → waits after
  flushed : ∀ files entry, waits files → files.table.find? id = some entry →
    waits (run entry Transfer.flush files).2
  output : ∀ files entry, waits files → files.table.find? id = some entry →
    (Transfer.flush { stream := entry.stream, host := files.host }).2.host.Stores node content
  idle : ∀ files entry, waits files → files.table.find? id = some entry →
    (entry.mode.writing && entry.stream.direction != .read) = false → files.host.Stores node content

namespace Awaits

variable {waits : Files → Prop} {content : Bytes} (awaits : Awaits waits id node content)
  (waiting : waits files)

include awaits waiting

theorem run_settles (found : files.table.find? id = some entry) {table : FileTable}
    (alone : Alone { table, host := files.host } id node) :
    (run entry Transfer.flush { table, host := files.host }).2.Settled id node content := by
  have nodes := run_flush_node? entry { table, host := files.host }
  have own := FileTable.id_of_find? found
  have stored := awaits.output files entry waiting found
  rw [run_files] at nodes ⊢
  exact ⟨stored, alone.setStream nodes (absurd own)⟩

theorem flush_stores : (flush id files).2.host.Stores node content := by
  obtain ⟨entry, found⟩ := awaits.found files waiting
  rw [flush_run found]
  split
  · exact (awaits.run_settles waiting found (awaits.alone files waiting)).1
  · rename_i idle
    exact awaits.idle files entry waiting found (by simpa using idle)

theorem flush_waits : waits (flush id files).2 := by
  obtain ⟨entry, found⟩ := awaits.found files waiting
  rw [flush_run found]
  split
  · exact awaits.flushed files entry waiting found
  · exact waiting

theorem close_settles (ordinary : id.isStandard = false) :
    (close id files).2.Settled id node content := by
  obtain ⟨entry, found⟩ := awaits.found files waiting
  have leaving := without_alone (awaits.alone files waiting) id
  rw [close_files found ordinary]
  cases writing : entry.mode.writing with
  | true => exact awaits.run_settles waiting found leaving
  | false => exact ⟨awaits.idle files entry waiting found (by simp [writing]), leaving⟩

theorem closeAll_settles (ordinary : id.isStandard = false) :
    (closeAll files).2.Settled id node content := by
  have own : id ∈ files.table.ids.filter fun id => !id.isStandard := by
    obtain ⟨entry, found⟩ := awaits.found files waiting
    rw [List.mem_filter]
    refine ⟨?_, by simp [ordinary]⟩
    rw [← FileTable.id_of_find? found]
    exact List.mem_map_of_mem (FileTable.mem_of_find? found)
  have distinct : (files.table.ids.filter fun id => !id.isStandard).Nodup :=
    (awaits.distinct files waiting).filter _
  have closed : (closeAll files).2
      = (files.table.ids.filter fun id => !id.isStandard).foldl
          (fun files id => (close id files).2) files := forAll_files close _ files
  rw [closed]
  apply foldl_settles waits (Settled · id node content) distinct own waiting
  · intro files still other _ differs
    exact awaits.aside _ _ still (close_aside differs (awaits.alone files still))
  · intro files still
    exact awaits.close_settles still ordinary
  · intro files settled other _ differs
    exact settled.aside (close_aside differs settled.2)

theorem flushAll_waits : waits (flushAll files).2 := by
  have flushed : (flushAll files).2
      = files.table.ids.foldl (fun files id => (flush id files).2) files := forAll_files flush _ files
  rw [flushed]
  refine List.foldlRecOn (motive := waits) files.table.ids _ waiting ?_
  intro files still other _
  by_cases own : other = id
  · rw [own]
    exact awaits.flush_waits still
  · exact awaits.aside _ _ still (flush_aside own (awaits.alone files still))

theorem shutdown_settles : files.shutdown.Settled id node content := by
  rw [shutdown]
  have flushed := awaits.flushAll_waits waiting
  generalize (flushAll files).2 = files at flushed
  obtain ⟨entry, found⟩ := awaits.found files flushed
  have handles := awaits.distinct files flushed
  have distinct : files.table.entries.Nodup :=
    List.Pairwise.of_map Entry.id (fun _ _ differ same => differ (congrArg Entry.id same)) handles
  have others (other : Entry) (present : other ∈ files.table.entries) (differs : other ≠ entry) :
      other.id ≠ id ∧ files.host.node? other.stream.descriptor ≠ some node := by
    have apart : other.id ≠ id := by
      intro same
      have twice := FileTable.find?_of_mem handles present
      rw [same, found] at twice
      exact differs (Option.some.inj twice).symm
    exact ⟨apart, awaits.alone files flushed other present apart⟩
  -- Entries are the ones found at the start, and stand for their files as long as no descriptor moves.
  let still (later : Files) : Prop :=
    ∀ descriptor, later.host.node? descriptor = files.host.node? descriptor
  have beside (later : Files) (agrees : still later) (other : Entry)
      (present : other ∈ files.table.entries) (differs : other ≠ entry) :
      Aside id node later (run other Transfer.flush later).2 := by
    obtain ⟨apart, away⟩ := others other present differs
    exact run_flush_aside apart (by rwa [agrees])
  have agree (later : Files) (agrees : still later) (other : Entry) :
      still (run other Transfer.flush later).2 := by
    intro descriptor
    rw [run_flush_node?, agrees]
  refine (foldl_settles
    (fun later => (waits later ∧ later.table.find? id = some entry) ∧ still later)
    (fun later => later.Settled id node content ∧ still later)
    distinct (FileTable.mem_of_find? found) ⟨⟨flushed, found⟩, fun _ => rfl⟩ ?_ ?_ ?_).1
  · intro later ⟨⟨waiting, same⟩, agrees⟩ other present differs
    have unseen := beside later agrees other present differs
    exact ⟨⟨awaits.aside _ _ waiting unseen, unseen.found.trans same⟩, agree later agrees other⟩
  · intro later ⟨⟨waiting, same⟩, agrees⟩
    exact ⟨awaits.run_settles waiting same (awaits.alone later waiting), agree later agrees entry⟩
  · intro later settled other present differs
    exact ⟨settled.1.aside (beside later settled.2 other present differs),
      agree later settled.2 other⟩

end Awaits

theorem Mirrors.alone (mirrors : files.Mirrors home handles plain) (tracked : id ∈ handles)
    (visible : plain id = some shown) : files.Alone id (home id) := by
  obtain ⟨entry, found, shows⟩ := mirrors.find tracked visible
  have alone := shows.alone
  rwa [FileTable.id_of_find? found] at alone

theorem Mirrors.single (mirrors : files.Mirrors home handles plain) (tracked : id ∈ handles) :
    files.Mirrors home [id] plain where
  chunk := mirrors.chunk
  distinct := mirrors.distinct
  closed := by
    intro other one
    rw [List.mem_singleton.mp one]
    exact mirrors.closed id tracked
  shows := by
    intro other one
    rw [List.mem_singleton.mp one]
    exact mirrors.shows id tracked

theorem mirrors_await (home : FileId → NodeId) (visible : plain id = some shown) :
    Awaits (Mirrors · home [id] plain) id (home id) shown.file.content := by
  have shows {files : Files} {entry : Entry} (mirrors : files.Mirrors home [id] plain)
      (found : files.table.find? id = some entry) : files.Shows (home id) entry shown := by
    obtain ⟨listed, present, shows⟩ := mirrors.find List.mem_cons_self visible
    rw [found] at present
    cases present
    exact shows
  constructor
  case distinct => exact fun files mirrors => mirrors.distinct
  case alone => exact fun files mirrors => mirrors.alone List.mem_cons_self visible
  case found =>
    intro files mirrors
    obtain ⟨entry, found, _⟩ := mirrors.find List.mem_cons_self visible
    exact ⟨entry, found⟩
  case aside => exact fun files after mirrors aside => mirrors.aside aside
  case flushed =>
    intro files entry mirrors found
    have shown := shows mirrors found
    obtain ⟨after, ran, reached⟩ := run_gives mirrors found shown
      (Transfer.flush_yields shown.mirrors) shown.outward
    rw [ran]
    rwa [PlainFiles.set_of_visible visible] at reached
  case output =>
    intro files entry mirrors found
    obtain ⟨offset, disk, holds, mirrored⟩ := (shows mirrors found).mirrors
    obtain ⟨after, ran, held, _⟩ := Transfer.flush_run holds mirrored
    rw [ran, mirrored.content]
    exact held.stores
  case idle =>
    intro files entry mirrors found idle
    have shown := shows mirrors found
    apply shown.stores
    cases writing : entry.mode.writing with
    | false => exact shown.written writing
    | true =>
        obtain ⟨offset, disk, holds, mirrored⟩ := shown.mirrors
        apply mirrored.nothing_pending
        intro outward
        rw [writing, outward] at idle
        cases idle

end Files

end Calculator
