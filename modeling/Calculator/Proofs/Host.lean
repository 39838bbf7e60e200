import Calculator.Proofs.Patch
import Calculator.Host.Basic

/-!
# Descriptors on regular files

What the host does for a descriptor that is open on a regular file and does not append, said over the
bytes of the file; and that no request on one node is seen at another.
-/

namespace Calculator

namespace Host

/-- The descriptor stands at `offset` of the regular file `node`, which holds `disk`. -/
def Holds (host : Host) (id : DescriptorId) (node : NodeId) (offset : Nat) (disk : Bytes) : Prop :=
  ∃ content, host.descriptors[id]? = some { node, offset, appends := false }
    ∧ host.nodes[node]? = some (.file content) ∧ content.toBytes = disk

def Stores (host : Host) (node : NodeId) (disk : Bytes) : Prop :=
  ∃ content, host.nodes[node]? = some (.file content) ∧ content.toBytes = disk

/-- Two hosts agree on a node and on the descriptors that are open on it. -/
structure SameAt (node : NodeId) (before after : Host) : Prop where
  stored : after.nodes[node]? = before.nodes[node]?
  descriptor : ∀ id, before.node? id = some node → after.descriptors[id]? = before.descriptors[id]?
  node? : ∀ id, after.node? id = before.node? id

theorem SameAt.refl (node : NodeId) (host : Host) : SameAt node host host :=
  ⟨rfl, fun _ _ => rfl, fun _ => rfl⟩

theorem SameAt.trans {node : NodeId} {first second third : Host} (one : SameAt node first second)
    (two : SameAt node second third) : SameAt node first third where
  stored := two.stored.trans one.stored
  descriptor := by
    intro id on
    have still : second.node? id = some node := (one.node? id).trans on
    rw [two.descriptor id still, one.descriptor id on]
  node? := fun id => (two.node? id).trans (one.node? id)

theorem Holds.stores {host : Host} {id : DescriptorId} {node : NodeId} {offset : Nat} {disk : Bytes}
    (holds : host.Holds id node offset disk) : host.Stores node disk := by
  obtain ⟨content, _, stored, bytes⟩ := holds
  exact ⟨content, stored, bytes⟩

theorem Holds.node? {host : Host} {id : DescriptorId} {node : NodeId} {offset : Nat} {disk : Bytes}
    (holds : host.Holds id node offset disk) : host.node? id = some node := by
  obtain ⟨content, opened, _, _⟩ := holds
  rw [Host.node?, opened]
  rfl

theorem Holds.sameAt {before after : Host} {id : DescriptorId} {node : NodeId} {offset : Nat}
    {disk : Bytes} (holds : before.Holds id node offset disk) (same : SameAt node before after) :
    after.Holds id node offset disk := by
  have on := holds.node?
  obtain ⟨content, opened, stored, bytes⟩ := holds
  exact ⟨content, (same.descriptor id on).trans opened, same.stored.trans stored, bytes⟩

theorem Stores.sameAt {before after : Host} {node : NodeId} {disk : Bytes}
    (stores : before.Stores node disk) (same : SameAt node before after) :
    after.Stores node disk := by
  obtain ⟨content, stored, bytes⟩ := stores
  exact ⟨content, same.stored.trans stored, bytes⟩

theorem setOffset_node? (host : Host) (id : DescriptorId) (offset : Nat) (other : DescriptorId) :
    (host.setOffset id offset).node? other = host.node? other := by
  rw [node?, node?, setOffset, List.getElem?_modify]
  cases host.descriptors[other]? with
  | none => rfl
  | some descriptor =>
      by_cases same : id = other
      · simp [same]
      · simp [same]

theorem setOffset_sameAt (host : Host) (id : DescriptorId) (offset : Nat) {node : NodeId}
    (apart : host.node? id ≠ some node) : SameAt node host (host.setOffset id offset) where
  stored := rfl
  descriptor := by
    intro other on
    have differs : id ≠ other := by
      rintro rfl
      exact apart on
    exact List.getElem?_modify_ne _ _ differs
  node? := setOffset_node? host id offset

theorem setNode_sameAt (host : Host) {written node : NodeId} (changed : Node)
    (apart : written ≠ node) : SameAt node host (host.setNode written changed) where
  stored := List.getElem?_set_ne apart
  descriptor := fun _ _ => rfl
  node? := fun _ => rfl

theorem open?_some {host : Host} {id : DescriptorId} {descriptor : Descriptor} {node : Node}
    (opened : host.open? id = some (descriptor, node)) :
    host.descriptors[id]? = some descriptor ∧ host.nodes[descriptor.node]? = some node := by
  rw [open?] at opened
  cases found : host.descriptors[id]? with
  | none => simp [found] at opened
  | some present =>
      rw [found] at opened
      cases stored : host.nodes[present.node]? with
      | none => simp [stored] at opened
      | some content =>
          simp only [stored, Option.map_some, Option.some.injEq, Prod.mk.injEq] at opened
          obtain ⟨rfl, rfl⟩ := opened
          exact ⟨rfl, stored⟩

theorem Holds.open? {host : Host} {id : DescriptorId} {node : NodeId} {offset : Nat} {disk : Bytes}
    (holds : host.Holds id node offset disk) :
    ∃ content, host.open? id = some ({ node, offset, appends := false }, .file content)
      ∧ content.toBytes = disk := by
  obtain ⟨content, opened, stored, bytes⟩ := holds
  refine ⟨content, ?_, bytes⟩
  simp [Host.open?, opened, stored]

theorem Holds.setOffset {host : Host} {id : DescriptorId} {node : NodeId} {offset : Nat}
    {disk : Bytes} (holds : host.Holds id node offset disk) (target : Nat) :
    (host.setOffset id target).Holds id node target disk := by
  obtain ⟨content, opened, stored, bytes⟩ := holds
  refine ⟨content, ?_, stored, bytes⟩
  rw [Host.setOffset, List.getElem?_modify_eq, opened]
  rfl

theorem Holds.setOffset_sameAt {host : Host} {id : DescriptorId} {node : NodeId} {offset : Nat}
    {disk : Bytes} (holds : host.Holds id node offset disk) (target : Nat) {other : NodeId}
    (apart : other ≠ node) : SameAt other host (host.setOffset id target) := by
  apply Host.setOffset_sameAt
  rw [holds.node?]
  simpa using Ne.symm apart

section RegularFile

variable {host : Host} {id : DescriptorId} {node : NodeId} {offset : Nat} {disk : Bytes}

theorem read_regular (holds : host.Holds id node offset disk) (count : Nat) :
    host.read id count
      = (.ok ((disk.drop offset).take count),
        host.setOffset id (offset + ((disk.drop offset).take count).length)) := by
  obtain ⟨content, opened, rfl⟩ := holds.open?
  simp [read, opened, Content.read_eq]

theorem seek_regular (holds : host.Holds id node offset disk) {target : Nat}
    (inside : target ≤ Content.maxSize) :
    host.seek id target = (.ok (), host.setOffset id target) := by
  obtain ⟨content, opened, rfl⟩ := holds.open?
  simp [seek, opened, inside]

theorem tell_regular (holds : host.Holds id node offset disk) : host.tell id = .ok offset := by
  obtain ⟨content, opened, rfl⟩ := holds.open?
  simp [tell, opened]

theorem seekBack_regular (holds : host.Holds id node offset disk) {count : Nat}
    (enough : count ≤ offset) (inside : offset - count ≤ Content.maxSize) :
    host.seekBack id count = (.ok (), host.setOffset id (offset - count)) := by
  have stands := tell_regular holds
  have moved := seek_regular holds inside
  obtain ⟨content, opened, rfl⟩ := holds.open?
  simp [seekBack, opened, stands, enough, moved]

theorem size_regular (holds : host.Holds id node offset disk) : host.size id = .ok disk.length := by
  obtain ⟨content, opened, rfl⟩ := holds.open?
  simp [size, opened, Content.size_eq]

theorem remaining_regular (holds : host.Holds id node offset disk) :
    host.remaining id = disk.length - offset := by
  obtain ⟨content, opened, rfl⟩ := holds.open?
  simp [remaining, opened, Content.size_eq]

theorem peek_regular (holds : host.Holds id node offset disk) (start count : Nat) :
    host.peek id start count = (disk.drop start).take count := by
  obtain ⟨content, opened, rfl⟩ := holds.open?
  simp [peek, opened, Content.read_eq]

/-- A write that the file has room for overwrites its bytes from the offset on and leaves the
descriptor behind them. -/
theorem write_regular (holds : host.Holds id node offset disk) (bytes : Bytes)
    (room : offset + bytes.length ≤ Content.maxSize) :
    ∃ after, host.write id bytes = (.ok (), after)
      ∧ after.Holds id node (offset + bytes.length) (disk.patch offset bytes)
      ∧ ∀ other, other ≠ node → SameAt other host after := by
  by_cases nothing : bytes = []
  · subst nothing
    exact ⟨host, rfl, holds, fun other _ => SameAt.refl other host⟩
  obtain ⟨content, opened, rfl⟩ := holds.open?
  refine ⟨host.put id node content offset bytes, ?_, ?_, ?_⟩
  · rw [write, if_neg (by simpa using nothing), opened]
    have fits : bytes.length ≤ Content.maxSize - offset := by omega
    simp [writeFile, fits]
  · have stored : (host.setNode node (.file (content.write offset bytes))).Holds id node offset
        (content.toBytes.patch offset bytes) := by
      obtain ⟨_, found, present, _⟩ := holds
      refine ⟨_, found, ?_, Content.toBytes_write_eq_patch content offset bytes⟩
      have inside : node < host.nodes.length := (List.getElem?_eq_some_iff.mp present).1
      exact List.getElem?_set_self inside
    exact stored.setOffset _
  · intro other apart
    have first := setNode_sameAt host (.file (content.write offset bytes)) (Ne.symm apart)
    refine first.trans (Host.setOffset_sameAt _ id _ ?_)
    rw [first.node?, holds.node?]
    simpa using Ne.symm apart

end RegularFile

theorem write_sameAt (host : Host) (id : DescriptorId) (bytes : Bytes) {node : NodeId}
    (apart : host.node? id ≠ some node) : SameAt node host (host.write id bytes).2 := by
  have refl := SameAt.refl node host
  rw [write]
  split
  · exact refl
  · cases opened : host.open? id with
    | none => exact refl
    | some found =>
        obtain ⟨descriptor, written⟩ := found
        have own : host.node? id = some descriptor.node := by
          rw [node?, (open?_some opened).1]
          rfl
        have elsewhere : descriptor.node ≠ node := by
          intro same
          exact apart (own.trans (congrArg some same))
        have put (content : Content) (start : Nat) (part : Bytes) :
            SameAt node host (host.put id descriptor.node content start part) := by
          have first := setNode_sameAt host (.file (content.write start part)) elsewhere
          exact first.trans (setOffset_sameAt _ id _ (by rwa [first.node?]))
        cases written with
        | file content =>
            simp only [writeFile]
            generalize (if descriptor.appends then content.size else descriptor.offset) = start
            split
            · exact put _ _ _
            · split
              · exact refl
              · exact put _ _ _
        | directory parent entries => exact refl
        | pipe queued => exact setNode_sameAt host _ elsewhere
        | fullDevice => exact refl
        | nullDevice => exact refl

end Host

end Calculator
