import Calculator.Proofs.StreamBuffers

/-!
# Streams on regular files

What a write does through any descriptor on a regular file, one that appends included: it begins at the
end of the file or at the offset, and the file takes as much of it as it can hold. A flush and a move of
a stream are told by it.
-/

namespace Calculator

namespace Descriptor

def writeStart (descriptor : Descriptor) (content : Content) : Nat :=
  if descriptor.appends then content.size else descriptor.offset

def taken (descriptor : Descriptor) (content : Content) (bytes : Bytes) : Bytes :=
  bytes.take (Content.maxSize - descriptor.writeStart content)

def reached (descriptor : Descriptor) (content : Content) (bytes : Bytes) : Nat :=
  if descriptor.taken content bytes = [] then descriptor.offset
  else descriptor.writeStart content + (descriptor.taken content bytes).length

variable {descriptor : Descriptor} {content : Content} {bytes : Bytes}

theorem taken_of_fits (fits : bytes.length ≤ Content.maxSize - descriptor.writeStart content) :
    descriptor.taken content bytes = bytes :=
  List.take_of_length_le fits

end Descriptor

namespace Host

variable {host : Host} {id other : DescriptorId} {descriptor : Descriptor} {content : Content}

theorem open?_eq (host : Host) (id : DescriptorId) :
    host.open? id = (host.descriptors[id]?).bind fun descriptor =>
      (host.nodes[descriptor.node]?).map fun node => (descriptor, node) := by
  rw [open?]
  cases host.descriptors[id]? <;> rfl

theorem open?_of {node : Node} (found : host.descriptors[id]? = some descriptor)
    (stored : host.nodes[descriptor.node]? = some node) : host.open? id = some (descriptor, node) := by
  rw [open?_eq, found, Option.bind_some, stored]
  rfl

theorem node?_of_open? {node : Node} (opened : host.open? id = some (descriptor, node)) :
    host.node? id = some descriptor.node := by
  rw [node?, (open?_some opened).1]
  rfl

theorem setOffset_open? {node : Node} (opened : host.open? id = some (descriptor, node))
    (target : Nat) :
    (host.setOffset id target).open? id = some ({ descriptor with offset := target }, node) := by
  obtain ⟨found, stored⟩ := open?_some opened
  refine open?_of ?_ stored
  rw [setOffset, List.getElem?_modify_eq, found]
  rfl

theorem setOffset_open?_ne {node : Node} (opened : host.open? id = some (descriptor, node))
    (differs : other ≠ id) (target : Nat) :
    (host.setOffset other target).open? id = some (descriptor, node) := by
  obtain ⟨found, stored⟩ := open?_some opened
  refine open?_of ?_ stored
  rw [setOffset, List.getElem?_modify_ne _ _ differs]
  exact found

theorem setNode_open? {node : Node} (opened : host.open? id = some (descriptor, node))
    (changed : Node) :
    (host.setNode descriptor.node changed).open? id = some (descriptor, changed) := by
  obtain ⟨found, stored⟩ := open?_some opened
  exact open?_of found (List.getElem?_set_self (List.getElem?_eq_some_iff.mp stored).1)

theorem setNode_open?_ne {node : Node} (opened : host.open? id = some (descriptor, node))
    {written : NodeId} (apart : written ≠ descriptor.node) (changed : Node) :
    (host.setNode written changed).open? id = some (descriptor, node) := by
  obtain ⟨found, stored⟩ := open?_some opened
  exact open?_of found ((List.getElem?_set_ne apart).trans stored)

theorem put_open? (opened : host.open? id = some (descriptor, .file content)) (start : Nat)
    (bytes : Bytes) :
    (host.put id descriptor.node content start bytes).open? id
      = some ({ descriptor with offset := start + bytes.length }, .file (content.write start bytes)) :=
  setOffset_open? (setNode_open? opened _) _

/-- A write to a regular file is refused where the file cannot hold it, and then what the file can hold
of it is written. -/
theorem write_file (opened : host.open? id = some (descriptor, .file content)) (bytes : Bytes) :
    host.write id bytes
      = (if bytes.length ≤ Content.maxSize - descriptor.writeStart content then .ok ()
          else .error .fileTooLarge,
        if descriptor.taken content bytes = [] then host
        else host.put id descriptor.node content (descriptor.writeStart content)
          (descriptor.taken content bytes)) := by
  by_cases empty : bytes = []
  · subst empty
    simp [write, Descriptor.taken]
  have written : host.write id bytes = host.writeFile id descriptor content bytes := by
    rw [write, if_neg (by simpa using empty), opened]
  rw [written, writeFile, ← Descriptor.writeStart]
  by_cases fits : bytes.length ≤ Content.maxSize - descriptor.writeStart content
  · rw [if_pos fits, if_pos fits, Descriptor.taken_of_fits fits, if_neg empty]
  · rw [if_neg fits, if_neg fits]
    by_cases full : Content.maxSize - descriptor.writeStart content = 0
    · rw [if_pos full, if_pos (by rw [Descriptor.taken, full, List.take_zero])]
    · have some_taken : descriptor.taken content bytes ≠ [] := by
        rw [Descriptor.taken, Ne, List.take_eq_nil_iff]
        exact not_or_intro full empty
      rw [if_neg full, if_neg some_taken]
      rfl

theorem write_ok_iff (opened : host.open? id = some (descriptor, .file content)) (bytes : Bytes) :
    (host.write id bytes).1 = .ok ()
      ↔ bytes.length ≤ Content.maxSize - descriptor.writeStart content := by
  rw [write_file opened]
  split <;> simp_all

theorem write_open? (opened : host.open? id = some (descriptor, .file content)) (bytes : Bytes) :
    ∃ stored, (host.write id bytes).2.open? id
        = some ({ descriptor with offset := descriptor.reached content bytes }, .file stored)
      ∧ stored.toBytes
        = content.toBytes.patch (descriptor.writeStart content) (descriptor.taken content bytes) := by
  rw [write_file opened, Descriptor.reached]
  by_cases nothing : descriptor.taken content bytes = []
  · rw [if_pos nothing, if_pos nothing, nothing, Bytes.patch_nil]
    exact ⟨content, opened, rfl⟩
  · rw [if_neg nothing, if_neg nothing]
    exact ⟨_, put_open? opened _ _, Content.toBytes_write_eq_patch _ _ _⟩

/-- A write through another descriptor leaves the descriptor where it is, and leaves its file unless it
is open on it as well. -/
theorem write_open?_ne (opened : host.open? id = some (descriptor, .file content))
    {bytes : Bytes} (apart : other ≠ id ∨ bytes = []) :
    ∃ stored, (host.write other bytes).2.open? id = some (descriptor, .file stored)
      ∧ (host.node? other ≠ some descriptor.node ∨ bytes = [] → stored = content) := by
  have same : ∃ stored, host.open? id = some (descriptor, .file stored)
      ∧ (host.node? other ≠ some descriptor.node ∨ bytes = [] → stored = content) :=
    ⟨content, opened, fun _ => rfl⟩
  by_cases empty : bytes = []
  · subst empty
    exact same
  have differs : other ≠ id := apart.resolve_right empty
  rw [write, if_neg (by simpa using empty)]
  cases target : host.open? other with
  | none => exact same
  | some found =>
      obtain ⟨used, written⟩ := found
      have on := node?_of_open? target
      -- Only what writes to a regular file can reach the file of the descriptor.
      have elsewhere (changed : Node) (distinct : used.node ≠ descriptor.node) :
          ∃ stored, (host.setNode used.node changed).open? id = some (descriptor, .file stored)
            ∧ (host.node? other ≠ some descriptor.node ∨ bytes = [] → stored = content) :=
        ⟨content, setNode_open?_ne opened distinct changed, fun _ => rfl⟩
      cases written with
      | file held =>
          have wrote := congrArg Prod.snd (write_file target bytes)
          rw [write, if_neg (by simpa using empty), target] at wrote
          dsimp only at wrote ⊢
          rw [wrote]
          by_cases nothing : used.taken held bytes = []
          · rw [if_pos nothing]
            exact same
          · rw [if_neg nothing]
            by_cases distinct : used.node = descriptor.node
            · have together := setNode_open? opened
                (.file (held.write (used.writeStart held) (used.taken held bytes)))
              rw [← distinct] at together
              refine ⟨_, setOffset_open?_ne together differs _, ?_⟩
              rw [on, distinct]
              rintro (away | nothing)
              · exact absurd rfl away
              · exact absurd nothing empty
            · exact ⟨content, setOffset_open?_ne (setNode_open?_ne opened distinct _) differs _,
                fun _ => rfl⟩
      | pipe queued =>
          refine elsewhere _ ?_
          intro joined
          have one := (open?_some opened).2
          rw [← joined, (open?_some target).2] at one
          cases one
      | directory parent entries => exact same
      | fullDevice => exact same
      | nullDevice => exact same

theorem seek_file (opened : host.open? id = some (descriptor, .file content)) (target : Nat) :
    host.seek id target
      = if target ≤ Content.maxSize then (.ok (), host.setOffset id target)
        else (.error .invalidArgument, host) := by
  rw [seek, opened]

theorem seek_open?_ne {node : Node} (opened : host.open? id = some (descriptor, node))
    (differs : other ≠ id) (target : Nat) : (host.seek other target).2.open? id = some (descriptor, node) := by
  unfold seek
  split
  · exact opened
  · split
    · exact setOffset_open?_ne opened differs target
    · exact opened
  · exact setOffset_open?_ne opened differs target
  · exact opened
  · exact opened
  · exact opened

theorem seek_nodes (host : Host) (id : DescriptorId) (target : Nat) :
    (host.seek id target).2.nodes = host.nodes := by
  unfold seek
  split
  · rfl
  · split <;> rfl
  · rfl
  · rfl
  · rfl
  · rfl

theorem tell_file (opened : host.open? id = some (descriptor, .file content)) :
    host.tell id = .ok descriptor.offset := by
  rw [tell, opened]

theorem seekBack_file (opened : host.open? id = some (descriptor, .file content)) (count : Nat) :
    host.seekBack id count
      = if count ≤ descriptor.offset then host.seek id (descriptor.offset - count)
        else (.error .invalidArgument, host) := by
  simp only [seekBack, opened, tell_file opened]

section Moved

variable (opened : host.open? id = some (descriptor, .file content))

include opened

theorem read_open? (count : Nat) :
    ∃ offset, (host.read id count).2.open? id = some ({ descriptor with offset }, .file content) := by
  rw [read, opened]
  exact ⟨_, setOffset_open? opened _⟩

theorem seek_open? (target : Nat) :
    ∃ offset, (host.seek id target).2.open? id = some ({ descriptor with offset }, .file content) := by
  rw [seek_file opened]
  split
  · exact ⟨target, setOffset_open? opened target⟩
  · exact ⟨descriptor.offset, opened⟩

theorem seekBack_open? (count : Nat) :
    ∃ offset, (host.seekBack id count).2.open? id
      = some ({ descriptor with offset }, .file content) := by
  rw [seekBack_file opened]
  split
  · exact seek_open? opened _
  · exact ⟨descriptor.offset, opened⟩

theorem seekBack_fault {count : Nat} {fault : Fault} (failed : (host.seekBack id count).1 = .error fault) :
    fault = .invalidArgument := by
  rw [seekBack_file opened] at failed
  split at failed
  · rw [seek_file opened] at failed
    split at failed <;> cases failed
    rfl
  · cases failed
    rfl

end Moved

end Host

namespace Transfer

variable {channel after : Channel} {descriptor : Descriptor} {content : Content}

/-- A request changes nothing of the stream but the mark of a failure. -/
theorem request_eq {α : Type} (run : Host → DescriptorId → Except Fault α × Host) (channel : Channel) :
    ∃ failed, request run channel
      = ((run channel.host channel.stream.descriptor).1,
        { stream := { channel.stream with failed }
          host := (run channel.host channel.stream.descriptor).2 }) := by
  unfold request
  rcases run channel.host channel.stream.descriptor with ⟨answer, host⟩
  cases answer with
  | ok result => exact ⟨channel.stream.failed, rfl⟩
  | error fault => exact ⟨true, rfl⟩

theorem request_ok {α : Type} {run : Host → DescriptorId → Except Fault α × Host} {result : α}
    (ran : request run channel = (.ok result, after)) :
    run channel.host channel.stream.descriptor = (.ok result, after.host)
      ∧ after.stream = channel.stream := by
  unfold request at ran
  split at ran <;> cases ran
  exact ⟨‹_›, rfl⟩

theorem flush_ok (ran : flush channel = (.ok (), after)) :
    channel.host.write channel.stream.descriptor channel.stream.pending = (.ok (), after.host)
      ∧ after.stream = { channel.stream with pending := [] } := by
  rw [flush_eq] at ran
  exact request_ok ran

theorem flush_nothing (written : channel.stream.pending = []) : flush channel = (.ok (), channel) := by
  rw [flush_eq, written]
  obtain ⟨stream, host⟩ := channel
  obtain ⟨descriptor, buffered, ahead, pushback, pending, eof, failed, direction⟩ := stream
  cases written
  rfl

theorem seek_flushed (ran : flush channel = (.ok (), after)) (target : Nat) :
    seek target after = seek target channel := by
  have nothing : after.stream.pending = [] := by rw [(flush_ok ran).2]
  unfold seek
  rw [Effect.bind_ok ran, Effect.bind_ok (flush_nothing nothing)]

theorem reposition_flushed (ran : flush channel = (.ok (), after)) (target : Nat) :
    reposition target after = reposition target channel :=
  Effect.bind_congr_run (seek_flushed ran target)

theorem flush_file (opened : channel.host.open? channel.stream.descriptor
      = some (descriptor, .file content)) (ran : flush channel = (.ok (), after)) :
    ∃ stored, after.host.open? after.stream.descriptor
        = some ({ descriptor with offset := descriptor.reached content channel.stream.pending },
            .file stored)
      ∧ descriptor.taken content channel.stream.pending = channel.stream.pending
      ∧ stored.toBytes = content.toBytes.patch (descriptor.writeStart content) channel.stream.pending := by
  obtain ⟨written, stream⟩ := flush_ok ran
  have fits := (Host.write_ok_iff opened channel.stream.pending).mp (congrArg Prod.fst written)
  obtain ⟨stored, reached, bytes⟩ := Host.write_open? opened channel.stream.pending
  rw [written] at reached
  rw [Descriptor.taken_of_fits fits] at bytes
  rw [stream]
  exact ⟨stored, reached, Descriptor.taken_of_fits fits, bytes⟩

/-- A move that succeeds is a flush and a move of the descriptor. -/
theorem reposition_ok {target : Nat} (ran : reposition target channel = (.ok (), after)) :
    ∃ flushed, flush channel = (.ok (), flushed)
      ∧ flushed.host.seek channel.stream.descriptor target = (.ok (), after.host)
      ∧ after.stream = { channel.stream with
          pending := [], ahead := [], pushback := [], eof := false, direction := .none } := by
  obtain ⟨_, middle, sought, turned⟩ := Effect.steps_of_ok ran
  obtain ⟨_, flushed, ranFlush, rest⟩ := Effect.steps_of_ok sought
  obtain ⟨_, emptied, cleared, asked⟩ := Effect.steps_of_ok rest
  have stream := (flush_ok ranFlush).2
  cases cleared
  cases turned
  obtain ⟨moved, kept⟩ := request_ok asked
  refine ⟨flushed, ranFlush, ?_, ?_⟩
  · simpa only [stream] using moved
  · simp only [kept, stream]

/-- It leaves all of the output in the file and the descriptor at its target. -/
theorem reposition_file {target : Nat} (opened : channel.host.open? channel.stream.descriptor
      = some (descriptor, .file content)) (ran : reposition target channel = (.ok (), after)) :
    ∃ stored, after.host.open? after.stream.descriptor
        = some ({ descriptor with offset := target }, .file stored)
      ∧ stored.toBytes
        = content.toBytes.patch (descriptor.writeStart content) channel.stream.pending := by
  obtain ⟨flushed, ranFlush, moved, stream⟩ := reposition_ok ran
  obtain ⟨stored, held, _, bytes⟩ := flush_file opened ranFlush
  rw [(flush_ok ranFlush).2] at held
  rw [Host.seek_file held] at moved
  refine ⟨stored, ?_, bytes⟩
  split at moved
  · rw [← (Prod.mk.inj moved).2, stream]
    exact Host.setOffset_open? held target
  · cases congrArg Prod.fst moved

end Transfer

end Calculator
