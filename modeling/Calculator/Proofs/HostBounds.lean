import Calculator.Proofs.Frame
import Calculator.Proofs.OpenedNames
import Calculator.Proofs.TableSteps

/-!
# How far files reach

No file is larger than a file can be, and no descriptor on a file stands beyond that, however files are
opened, read, written and moved. Only in a directory can a descriptor stand anywhere.
-/

namespace Calculator

open Relation (ReflTransGen)

namespace Host

/-- Files and the descriptors on them keep to the largest size of a file. -/
structure Bounded (host : Host) : Prop where
  sized : ∀ (node : NodeId) (content : Content), host.nodes[node]? = some (.file content) →
    content.size ≤ Content.maxSize
  stands : ∀ (id : DescriptorId) (descriptor : Descriptor), host.descriptors[id]? = some descriptor →
    descriptor.offset ≤ Content.maxSize ∨ host.isDirectory descriptor.node = true

variable {host : Host} {id : DescriptorId} {node : NodeId} {descriptor : Descriptor} {content : Content}

theorem Bounded.file (bounded : host.Bounded) (opened : host.open? id = some (descriptor, .file content)) :
    descriptor.offset ≤ Content.maxSize ∧ content.size ≤ Content.maxSize := by
  obtain ⟨listed, stored⟩ := open?_some opened
  refine ⟨(bounded.stands id descriptor listed).resolve_right ?_, bounded.sized _ content stored⟩
  rw [isDirectory, stored]
  exact Bool.false_ne_true

theorem Bounded.setOffset (bounded : host.Bounded) {target : Nat}
    (allowed : target ≤ Content.maxSize
      ∨ ∀ descriptor, host.descriptors[id]? = some descriptor → host.isDirectory descriptor.node = true) :
    (host.setOffset id target).Bounded where
  sized := bounded.sized
  stands := by
    intro other moved listed
    rw [Host.setOffset, List.getElem?_modify] at listed
    obtain ⟨descriptor, before, rfl⟩ := Option.map_eq_some_iff.mp listed
    by_cases own : id = other
    · subst own
      rw [if_pos rfl]
      exact allowed.imp (fun near => near) fun above => above descriptor before
    · rw [if_neg own]
      exact bounded.stands other descriptor before

/-- A node may change where a directory stays one and a file is not too large. -/
theorem Bounded.setNode (bounded : host.Bounded) {changed : Node}
    (sized : ∀ content, changed = .file content → content.size ≤ Content.maxSize)
    (directory : host.isDirectory node = true → ∃ parent entries, changed = .directory parent entries) :
    (host.setNode node changed).Bounded where
  sized := by
    intro other content stored
    rw [Host.setNode, List.getElem?_set] at stored
    split at stored
    · split at stored
      · exact sized content (Option.some.inj stored)
      · cases stored
    · exact bounded.sized other content stored
  stands := by
    intro other descriptor listed
    refine (bounded.stands other descriptor listed).imp (fun near => near) fun above => ?_
    obtain ⟨_, _, stored⟩ := isDirectory_iff.mp above
    by_cases own : node = descriptor.node
    · subst own
      obtain ⟨parent, entries, rfl⟩ := directory above
      have inside := (List.getElem?_eq_some_iff.mp stored).1
      exact isDirectory_iff.mpr ⟨parent, entries, List.getElem?_set_self inside⟩
    · exact isDirectory_iff.mpr ⟨_, _, (List.getElem?_set_ne own).trans stored⟩

theorem Bounded.addNode (bounded : host.Bounded) {added : Node}
    (sized : ∀ content, added = .file content → content.size ≤ Content.maxSize) :
    (host.addNode added).2.Bounded where
  sized := by
    intro other content stored
    rw [Host.addNode, List.getElem?_append] at stored
    split at stored
    · exact bounded.sized other content stored
    · exact sized content (List.mem_singleton.mp (List.mem_of_getElem? stored)).symm
  stands := by
    intro other descriptor listed
    refine (bounded.stands other descriptor listed).imp (fun near => near) fun above => ?_
    obtain ⟨parent, entries, stored⟩ := isDirectory_iff.mp above
    refine isDirectory_iff.mpr ⟨parent, entries, ?_⟩
    have inside := (List.getElem?_eq_some_iff.mp stored).1
    exact (List.getElem?_append_left inside).trans stored

theorem Bounded.attach (bounded : host.Bounded) (node : NodeId) (appends : Bool) :
    (host.attach node appends).2.Bounded where
  sized := bounded.sized
  stands := by
    intro other descriptor listed
    rw [Host.attach, List.getElem?_append] at listed
    split at listed
    · exact bounded.stands other descriptor listed
    · rw [List.mem_singleton.mp (List.mem_of_getElem? listed)]
      exact .inl (Nat.zero_le _)

theorem pipe_isDirectory {queued : Bytes} (opened : host.open? id = some (descriptor, .pipe queued)) :
    host.isDirectory descriptor.node = false := by
  rw [isDirectory, (open?_some opened).2]

theorem file_isDirectory (opened : host.open? id = some (descriptor, .file content)) :
    host.isDirectory descriptor.node = false := by
  rw [isDirectory, (open?_some opened).2]

theorem Bounded.queue (bounded : host.Bounded) {queued : Bytes}
    (opened : host.open? id = some (descriptor, .pipe queued)) (left : Bytes) :
    (host.setNode descriptor.node (.pipe left)).Bounded := by
  refine bounded.setNode (fun _ same => by cases same) fun above => ?_
  rw [pipe_isDirectory opened] at above
  cases above

theorem Bounded.read (bounded : host.Bounded) (id : DescriptorId) (count : Nat) :
    (host.read id count).2.Bounded := by
  cases opened : host.open? id with
  | none => simpa only [Host.read, opened] using bounded
  | some found =>
      obtain ⟨descriptor, node⟩ := found
      cases node with
      | file content =>
          simp only [Host.read, opened]
          obtain ⟨near, small⟩ := bounded.file opened
          have length : (content.read descriptor.offset count).length
              ≤ content.size - descriptor.offset := by
            rw [Content.read_eq, Content.size_eq, List.length_take, List.length_drop]
            exact Nat.min_le_right _ _
          exact bounded.setOffset (.inl (by omega))
      | pipe queued =>
          simp only [Host.read, opened]
          exact bounded.queue opened _
      | directory _ _ => simpa only [Host.read, opened] using bounded
      | fullDevice => simpa only [Host.read, opened] using bounded
      | nullDevice => simpa only [Host.read, opened] using bounded

theorem Bounded.put (bounded : host.Bounded) (opened : host.open? id = some (descriptor, .file content))
    {start : Nat} {bytes : Bytes} (nonempty : bytes ≠ [])
    (inside : start + bytes.length ≤ Content.maxSize) :
    (host.put id descriptor.node content start bytes).Bounded := by
  refine Bounded.setOffset (bounded.setNode ?_ fun above => ?_) (.inl inside)
  · rintro _ ⟨⟩
    rw [Content.size_eq, Content.toBytes_write_eq_patch, Bytes.patch_length _ _ nonempty,
      ← Content.size_eq]
    exact Nat.max_le.mpr ⟨(bounded.file opened).2, inside⟩
  · rw [file_isDirectory opened] at above
    cases above

theorem Bounded.write (bounded : host.Bounded) (id : DescriptorId) (bytes : Bytes) :
    (host.write id bytes).2.Bounded := by
  by_cases empty : bytes.isEmpty = true
  · rwa [Host.write, if_pos empty]
  cases opened : host.open? id with
  | none => rwa [Host.write, if_neg empty, opened]
  | some found =>
      obtain ⟨descriptor, node⟩ := found
      cases node with
      | file content =>
          rw [write_file opened]
          dsimp only
          split
          · exact bounded
          · rename_i nonempty
            refine bounded.put opened nonempty ?_
            have some_byte := List.length_pos_iff.mpr nonempty
            have room : (descriptor.taken content bytes).length
                ≤ Content.maxSize - descriptor.writeStart content := List.length_take_le _ _
            omega
      | pipe queued =>
          rw [Host.write, if_neg empty, opened]
          exact bounded.queue opened _
      | directory _ _ => rwa [Host.write, if_neg empty, opened]
      | fullDevice => rwa [Host.write, if_neg empty, opened]
      | nullDevice => rwa [Host.write, if_neg empty, opened]

theorem Bounded.seek (bounded : host.Bounded) (id : DescriptorId) (target : Nat) :
    (host.seek id target).2.Bounded := by
  cases opened : host.open? id with
  | none => rwa [Host.seek, opened]
  | some found =>
      obtain ⟨descriptor, node⟩ := found
      cases node with
      | file content =>
          rw [seek_file opened]
          split
          · exact bounded.setOffset (.inl ‹_›)
          · exact bounded
      | directory parent entries =>
          rw [Host.seek, opened]
          obtain ⟨listed, stored⟩ := open?_some opened
          refine bounded.setOffset (.inr fun other present => ?_)
          rw [listed] at present
          cases present
          exact isDirectory_iff.mpr ⟨parent, entries, stored⟩
      | pipe queued => rwa [Host.seek, opened]
      | fullDevice => rwa [Host.seek, opened]
      | nullDevice => rwa [Host.seek, opened]

theorem Bounded.seekBack (bounded : host.Bounded) (id : DescriptorId) (count : Nat) :
    (host.seekBack id count).2.Bounded := by
  unfold Host.seekBack
  split
  · exact bounded
  · exact bounded
  · split
    · exact bounded
    · split
      · exact bounded.seek id _
      · exact bounded

theorem Bounded.addEntry (bounded : host.Bounded) (directory : NodeId) (name : String) :
    (host.addEntry directory name (.file Content.empty)).2.Bounded := by
  have added : (host.addNode (.file Content.empty)).2.Bounded := by
    refine bounded.addNode ?_
    rintro _ ⟨⟩
    exact Nat.zero_le _
  unfold Host.addEntry
  dsimp only
  split
  · exact added.setNode (fun _ same => by cases same) fun _ => ⟨_, _, rfl⟩
  · exact added

theorem Bounded.openNode (bounded : host.Bounded) (node : NodeId) (request : OpenRequest) :
    (host.openNode node request).2.Bounded := by
  unfold Host.openNode
  split
  · exact bounded
  · refine Bounded.attach ?_ node request.append
    split
    · rename_i content stored
      split
      · refine bounded.setNode ?_ fun above => ?_
        · rintro _ ⟨⟩
          exact Nat.zero_le _
        · obtain ⟨_, _, directory⟩ := isDirectory_iff.mp above
          rw [stored] at directory
          cases directory
      · exact bounded
    · exact bounded

theorem Bounded.openName (bounded : host.Bounded) (name : String) (request : OpenRequest) :
    (host.openName name request).2.Bounded := by
  unfold Host.openName
  split
  · exact bounded
  · split
    · exact bounded.openNode root request
    · split
      · exact bounded
      · unfold Host.openLast
        dsimp only
        split
        · exact bounded
        · split
          · exact bounded
          · split
            · split
              · exact bounded
              · exact bounded.openNode _ request
            · split
              · exact (bounded.addEntry _ _).openNode _ request
              · exact bounded
            · exact bounded

end Host

namespace Transfer

open Effect (Always)

def KeepsBounds (before after : Channel) : Prop :=
  before.host.Bounded → after.host.Bounded

theorem request_keepsBounds {α : Type} {run : Host → DescriptorId → Except Fault α × Host}
    (keeps : ∀ host id, Host.Bounded host → (run host id).2.Bounded) :
    Always KeepsBounds (request run) := by
  intro channel bounded
  obtain ⟨failed, ran⟩ := request_eq run channel
  rw [ran]
  exact keeps _ _ bounded

theorem flush_keepsBounds : Always KeepsBounds flush := by
  intro channel bounded
  rw [flush_eq]
  exact request_keepsBounds (fun _ id held => held.write id channel.stream.pending) _ bounded

theorem bounds_frame : Frame KeepsBounds where
  refl := fun _ bounded => bounded
  trans := fun _ _ _ one two bounded => two (one bounded)
  stream := fun _ _ _ _ _ bounded => bounded
  read := fun _ count bounded => bounded.read _ count
  seek := fun _ target bounded => bounded.seek _ target
  seekBack := fun _ count bounded => bounded.seekBack _ count
  flush := flush_keepsBounds

theorem writeAll_keepsBounds (bytes : Bytes) : Always KeepsBounds (writeAll bytes) := by
  intro channel
  cases buffered : channel.stream.buffered with
  | false =>
      rw [writeAll_unbuffered buffered]
      exact request_keepsBounds (fun _ id bounded => bounded.write id bytes) channel
  | true =>
      rw [writeAll_buffered buffered]
      dsimp only
      split
      · exact fun bounded => flush_keepsBounds _ bounded
      · exact fun bounded => bounded

theorem served_keepsBounds {entry : Entry} {α : Type} {transfer : Transfer α}
    (serves : entry.Serves true transfer) : Always KeepsBounds transfer := by
  intro channel
  obtain ⟨calls, _, reached⟩ := served_composed serves channel
  rw [← reached]
  refine List.foldlRecOn (motive := (KeepsBounds channel ·)) calls _ (bounds_frame.refl channel) ?_
  intro later between call _
  refine bounds_frame.trans _ _ _ between ?_
  cases call with
  | writeAll bytes => exact writeAll_keepsBounds bytes later
  | _ => exact call_framed _ rfl _ bounds_frame later

end Transfer

namespace Files

open Effect (Always)

def KeepsBounds (before after : Files) : Prop :=
  before.host.Bounded → after.host.Bounded

theorem bounds_stepwise : Stepwise KeepsBounds where
  refl := fun _ bounded => bounded
  trans := fun _ _ _ one two bounded => two (one bounded)
  ran := by
    rintro _ files _ ⟨_, serves⟩ bounded
    rw [run_files]
    exact Transfer.served_keepsBounds serves _ bounded
  opens := fun _ name request bounded => bounded.openName name request
  entered := fun _ _ _ _ _ _ bounded => bounded
  replaced := fun _ _ _ _ _ bounded => bounded
  dropped := fun _ _ bounded => bounded
  flushed := fun _ _ bounded => Transfer.flush_keepsBounds _ bounded

end Files

def FileCall.KeepsHost : FileCall → Prop
  | elsewhere host => host.Bounded
  | _ => True

theorem FileCall.after_keepsBounds (call : FileCall) (keeps : call.KeepsHost) (files : Files) :
    files.KeepsBounds (call.after files) := by
  refine call.after_stepwise Files.bounds_stepwise files fun host same => ?_
  subst same
  exact fun _ => keeps

/-- In every state of a run that begins on a host within its bounds, no file of the table stands beyond
the largest size of a file. -/
theorem Files.bounded_over_runs {host : Host} (bounded : host.Bounded) (maxFiles readChunk : Nat)
    (adopt : Bool) {calls : List FileCall} (keeps : ∀ call ∈ calls, call.KeepsHost) :
    (FileCall.afterAll calls (Files.new host maxFiles readChunk adopt)).host.Bounded := by
  have begun : (Files.new host maxFiles readChunk adopt).host.Bounded := by
    cases adopt with
    | false => exact bounded
    | true => exact Files.adoptInherited_stepwise Files.bounds_stepwise _ bounded
  refine List.foldlRecOn (motive := fun files : Files => files.host.Bounded) calls _ begun ?_
  intro later reached call made
  exact call.after_keepsBounds (keeps call made) later reached

end Calculator
