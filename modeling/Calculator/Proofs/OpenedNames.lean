import Calculator.File.Table
import Calculator.Proofs.Host

/-!
# What the opening of a name does to the host

A refused request changes nothing. One that is granted adds a descriptor, and at most one file: what is
opened is a node that was there, emptied where the request says so, or a new empty file under a name that
was free. So every other name stands for the file that it stood for before, and for the same bytes.
-/

namespace Calculator.Host

variable {before host after : Host} {id : DescriptorId} {node directory target : NodeId}
  {request : OpenRequest} {fault : Fault} {name component last : String} {path : List String}

theorem openNode_refused (refused : host.openNode node request = (.error fault, after)) :
    after = host ∧ host.isDirectory node = true := by
  unfold openNode at refused
  split at refused
  · rename_i asked
    cases refused
    exact ⟨rfl, (Bool.and_eq_true_iff.mp asked).1⟩
  · cases refused

theorem addEntry_fst (host : Host) (directory : NodeId) (name : String) (added : Node) :
    (host.addEntry directory name added).1 = host.nodes.length := by
  unfold addEntry
  dsimp only [addNode]
  split <;> rfl

/-- A directory gets one more entry, for a node behind all others. -/
theorem addEntry_nodes {parent : NodeId} {entries : List (String × NodeId)}
    (found : host.nodes[directory]? = some (.directory parent entries)) (name : String) (added : Node) :
    (host.addEntry directory name added).2.nodes
      = (host.nodes ++ [added]).set directory
          (.directory parent (entries ++ [(name, host.nodes.length)])) := by
  have inside := (List.getElem?_eq_some_iff.mp found).1
  have still : (host.addNode added).2.nodes[directory]? = some (.directory parent entries) := by
    rw [addNode, List.getElem?_append_left inside, found]
  unfold addEntry
  dsimp only
  rw [still]
  rfl

theorem step_directory (stepped : host.step directory component = .error .noEntry) :
    ∃ parent entries, host.nodes[directory]? = some (.directory parent entries) := by
  unfold step at stepped
  split at stepped
  · rename_i parent entries found
    split at stepped
    · cases stepped
    split at stepped
    · cases stepped
    split at stepped
    · cases stepped
    split at stepped
    · cases stepped
    · exact ⟨parent, entries, found⟩
  · cases stepped

theorem step_congr (same : ∀ parent entries, before.nodes[directory]? = some (.directory parent entries)
      ↔ after.nodes[directory]? = some (.directory parent entries)) (component : String) :
    after.step directory component = before.step directory component := by
  unfold step
  split
  · rename_i parent entries found
    rw [(same parent entries).mpr found]
  · rename_i none
    split
    · rename_i parent entries found
      exact absurd ((same parent entries).mp found) (none parent entries)
    · rfl

theorem step_plain (plain : host.isDirectory directory = false) (component : String) :
    host.step directory component = .error .notDirectory := by
  unfold step
  split
  · rename_i parent entries found
    rw [isDirectory, found] at plain
    cases plain
  · rfl

/-- The host has at most one file more, `node`, under one name more; where that one was there before it
may be empty now. -/
structure Grows (before after : Host) (node : NodeId) : Prop where
  /-- Other files are as they were. -/
  file : ∀ other, other ≠ node → ∀ content,
    after.nodes[other]? = some (.file content) ↔ before.nodes[other]? = some (.file content)
  isDirectory : ∀ other, after.isDirectory other = before.isDirectory other
  step : ∀ directory component target, before.step directory component = .ok target →
    after.step directory component = .ok target
  /-- What is found under a new name is the file. -/
  found : ∀ directory component target, after.step directory component = .ok target →
    before.step directory component = .ok target ∨ target = node ∧ after.isDirectory node = false

theorem Grows.trans (first : before.Grows host node) (second : host.Grows after node) :
    before.Grows after node where
  file := fun other apart content =>
    (second.file other apart content).trans (first.file other apart content)
  isDirectory := fun other => (second.isDirectory other).trans (first.isDirectory other)
  step := fun directory component target stepped =>
    second.step directory component target (first.step directory component target stepped)
  found := by
    intro directory component target stepped
    rcases second.found directory component target stepped with middle | new
    · rcases first.found directory component target middle with early | ⟨own, plain⟩
      · exact .inl early
      · exact .inr ⟨own, (second.isDirectory node).trans plain⟩
    · exact .inr new

theorem isDirectory_iff :
    host.isDirectory node = true ↔ ∃ parent entries, host.nodes[node]? = some (.directory parent entries) := by
  unfold isDirectory
  split
  · rename_i parent entries found
    exact ⟨fun _ => ⟨parent, entries, found⟩, fun _ => rfl⟩
  · rename_i none
    exact ⟨fun clash => (by cases clash), fun ⟨parent, entries, found⟩ =>
      (none parent entries found).elim⟩

theorem Grows.of_directories
    (file : ∀ other, other ≠ node → ∀ content,
      after.nodes[other]? = some (.file content) ↔ before.nodes[other]? = some (.file content))
    (same : ∀ (directory parent : NodeId) (entries : List (String × NodeId)),
      before.nodes[directory]? = some (.directory parent entries)
        ↔ after.nodes[directory]? = some (.directory parent entries)) : before.Grows after node where
  file := file
  isDirectory := by
    intro other
    rw [Bool.eq_iff_iff, isDirectory_iff, isDirectory_iff]
    simp only [same]
  step := by
    intro directory component target stepped
    rwa [step_congr (same directory)]
  found := by
    intro directory component target stepped
    rw [step_congr (same directory)] at stepped
    exact .inl stepped

/-- A request that is granted opens a descriptor on a node, which may be a new file then. -/
structure Granted (before : Host) (request : OpenRequest) (id : DescriptorId) (after : Host)
    (node : NodeId) : Prop extends Grows before after node where
  id : id = before.descriptors.length
  descriptors : after.descriptors
    = before.descriptors ++ [{ node, offset := 0, appends := request.append }]
  /-- The file is not emptied where that is not asked for. -/
  kept : request.truncate = false → ∀ content, before.nodes[node]? = some (.file content) →
    after.nodes[node]? = some (.file content)

theorem openNode_granted (opened : host.openNode node request = (.ok id, after)) :
    host.Granted request id after node := by
  unfold openNode at opened
  split at opened
  · cases opened
  cases opened
  split
  · rename_i former there
    have inside := (List.getElem?_eq_some_iff.mp there).1
    cases truncates : request.truncate with
    | false =>
        exact ⟨.of_directories (fun _ _ _ => Iff.rfl) fun _ _ _ => Iff.rfl, rfl, rfl,
          fun _ _ there => there⟩
    | true =>
        refine ⟨.of_directories (fun other apart content => ?_) fun directory parent entries => ?_,
          rfl, rfl, fun keeps => by cases truncates.symm.trans keeps⟩
        · show (host.nodes.set node _)[other]? = _ ↔ _
          rw [List.getElem?_set_ne (Ne.symm apart)]
        · show _ ↔ (host.nodes.set node _)[directory]? = _
          by_cases own : directory = node
          · subst own
            rw [there, List.getElem?_set_self inside]
            constructor <;> intro clash <;> cases clash
          · rw [List.getElem?_set_ne (Ne.symm own)]
  · exact ⟨.of_directories (fun _ _ _ => Iff.rfl) fun _ _ _ => Iff.rfl, rfl, rfl, fun _ _ there => there⟩

/-- What one more entry of a directory changes for a step from there. -/
theorem step_appended {parent added : NodeId} {entries : List (String × NodeId)}
    (found : host.nodes[directory]? = some (.directory parent entries))
    (listing : after.nodes[directory]? = some (.directory parent (entries ++ [(last, added)])))
    (component : String) :
    after.step directory component = host.step directory component
      ∨ host.step directory component = .error .noEntry
        ∧ after.step directory component = .ok added := by
  have lookup : (entries ++ [(last, added)]).lookup component
      = (entries.lookup component).or (if component == last then some added else none) := by
    rw [List.lookup_append]
    congr 1
    show (match component == last with | true => some added | false => none) = _
    cases component == last <;> rfl
  unfold step
  rw [found, listing]
  dsimp only
  split
  · exact .inl rfl
  split
  · exact .inl rfl
  split
  · exact .inl rfl
  rw [lookup]
  cases entries.lookup component with
  | some target => exact .inl rfl
  | none =>
      by_cases own : component == last
      · rw [if_pos own]
        exact .inr ⟨rfl, rfl⟩
      · rw [if_neg own]
        exact .inl rfl

theorem addEntry_descriptors (host : Host) (directory : NodeId) (name : String) (added : Node) :
    (host.addEntry directory name added).2.descriptors = host.descriptors := by
  unfold addEntry
  dsimp only
  split <;> rfl

/-- A directory has one entry more, for an empty file behind all nodes. The other nodes are as they
were. -/
structure Extended (host after : Host) (directory : NodeId) (last : String) : Prop where
  listing : ∃ parent entries, host.nodes[directory]? = some (.directory parent entries)
    ∧ after.nodes[directory]? = some (.directory parent (entries ++ [(last, host.nodes.length)]))
  added : after.nodes[host.nodes.length]? = some (.file Content.empty)
  elsewhere : ∀ other, other ≠ host.nodes.length → other ≠ directory →
    after.nodes[other]? = host.nodes[other]?

theorem addEntry_extended (free : host.step directory last = .error .noEntry) :
    host.Extended (host.addEntry directory last (.file Content.empty)).2 directory last := by
  obtain ⟨parent, entries, found⟩ := step_directory free
  have inside := (List.getElem?_eq_some_iff.mp found).1
  have nodes := addEntry_nodes found last (.file Content.empty)
  refine ⟨⟨parent, entries, found, ?_⟩, ?_, fun other apart away => ?_⟩
  · rw [nodes, List.getElem?_set_self]
    rw [List.length_append]
    omega
  · rw [nodes, List.getElem?_set_ne (by omega), List.getElem?_concat_length]
  · rw [nodes, List.getElem?_set_ne (Ne.symm away), List.getElem?_append]
    split
    · rfl
    · rename_i past
      have high : host.nodes.length < other := Nat.lt_of_le_of_ne (Nat.le_of_not_lt past) (Ne.symm apart)
      have behind : host.nodes[other]? = none := List.getElem?_eq_none (Nat.le_of_lt high)
      rw [behind]
      exact List.getElem?_eq_none (Nat.sub_pos_of_lt high)

section Extended

variable (extended : host.Extended after directory last)

include extended

theorem Extended.step_elsewhere {other : NodeId} (away : other ≠ directory) (component : String) :
    after.step other component = host.step other component := by
  apply step_congr
  intro parent entries
  by_cases apart : other = host.nodes.length
  · rw [apart, List.getElem?_eq_none (Nat.le_refl _), extended.added]
    constructor <;> intro clash <;> cases clash
  · rw [extended.elsewhere other apart away]

theorem Extended.isDirectory (other : NodeId) : after.isDirectory other = host.isDirectory other := by
  obtain ⟨parent, entries, found, listing⟩ := extended.listing
  by_cases away : other = directory
  · rw [away, Host.isDirectory, Host.isDirectory, listing, found]
  · by_cases apart : other = host.nodes.length
    · rw [apart, Host.isDirectory, Host.isDirectory, extended.added,
        List.getElem?_eq_none (Nat.le_refl _)]
    · rw [Host.isDirectory, Host.isDirectory, extended.elsewhere other apart away]

theorem Extended.grows : host.Grows after host.nodes.length := by
  obtain ⟨parent, entries, found, listing⟩ := extended.listing
  refine ⟨fun other apart content => ?_, extended.isDirectory, ?_, ?_⟩
  · by_cases away : other = directory
    · rw [away, listing, found]
      constructor <;> intro clash <;> cases clash
    · rw [extended.elsewhere other apart away]
  · intro other component target stepped
    by_cases away : other = directory
    · subst away
      rcases step_appended found listing component with same | ⟨missed, _⟩
      · rwa [same]
      · rw [missed] at stepped
        cases stepped
    · rwa [extended.step_elsewhere away]
  · intro other component target stepped
    by_cases away : other = directory
    · subst away
      rcases step_appended found listing component with same | ⟨_, reached⟩
      · rw [same] at stepped
        exact .inl stepped
      · rw [reached] at stepped
        cases stepped
        refine .inr ⟨rfl, ?_⟩
        rw [Host.isDirectory, extended.added]
    · rw [extended.step_elsewhere away] at stepped
      exact .inl stepped

end Extended

theorem addEntry_plain (free : host.step directory last = .error .noEntry) :
    (host.addEntry directory last (.file Content.empty)).2.isDirectory host.nodes.length = false := by
  rw [(addEntry_extended free).isDirectory, isDirectory, List.getElem?_eq_none (Nat.le_refl _)]

theorem openLast_refused {slash : Bool}
    (refused : host.openLast directory last slash request = (.error fault, after)) : after = host := by
  unfold openLast at refused
  dsimp only at refused
  split at refused
  · cases refused
    rfl
  split at refused
  · cases refused
    rfl
  split at refused
  · split at refused
    · cases refused
      rfl
    · exact (openNode_refused refused).1
  · rename_i free
    split at refused
    · rw [addEntry_fst] at refused
      have folder := (openNode_refused refused).2
      rw [addEntry_plain free] at folder
      cases folder
    · cases refused
      rfl
  · cases refused
    rfl

theorem openName_refused (refused : host.openName name request = (.error fault, after)) :
    after = host := by
  unfold openName at refused
  split at refused
  · cases refused
    rfl
  split at refused
  · exact (openNode_refused refused).1
  split at refused
  · cases refused
    rfl
  · exact openLast_refused refused

theorem openLast_granted {slash : Bool}
    (opened : host.openLast directory last slash request = (.ok id, after)) :
    ∃ node, host.Granted request id after node := by
  unfold openLast at opened
  dsimp only at opened
  split at opened
  · cases opened
  split at opened
  · cases opened
  split at opened
  · split at opened
    · cases opened
    · exact ⟨_, openNode_granted opened⟩
  · rename_i free
    split at opened
    · rw [addEntry_fst] at opened
      have granted := openNode_granted opened
      refine ⟨_, (addEntry_extended free).grows.trans granted.toGrows, ?_, ?_, fun _ content there => ?_⟩
      · rw [granted.id, addEntry_descriptors]
      · rw [granted.descriptors, addEntry_descriptors]
      · rw [List.getElem?_eq_none (Nat.le_refl _)] at there
        cases there
    · cases opened
  · cases opened

theorem openName_granted (opened : host.openName name request = (.ok id, after)) :
    ∃ node, host.Granted request id after node := by
  unfold openName at opened
  split at opened
  · cases opened
  split at opened
  · exact ⟨_, openNode_granted opened⟩
  split at opened
  · cases opened
  · exact openLast_granted opened

theorem resolve_ok_iff : host.resolve name = .ok target
    ↔ checkName name = .ok () ∧ host.walk (startOf name) (components name) = .ok target
      ∧ (endsInSlash name && !host.isDirectory target) = false := by
  unfold resolve
  cases checkName name with
  | error fault => simp [bind, Except.bind]
  | ok _ =>
      cases host.walk (startOf name) (components name) with
      | error fault => simp [bind, Except.bind]
      | ok id =>
          show (if (endsInSlash name && !host.isDirectory id) = true then throw Fault.notDirectory
            else pure id : Except Fault NodeId) = _ ↔ _
          cases refused : endsInSlash name && !host.isDirectory id with
          | false =>
              constructor
              · intro reached
                cases reached
                exact ⟨rfl, rfl, refused⟩
              · rintro ⟨_, reached, _⟩
                exact reached
          | true =>
              constructor
              · intro reached
                cases reached
              · rintro ⟨_, reached, stands⟩
                cases reached
                rw [refused] at stands
                cases stands

theorem find?_file_iff {content : Content} : host.find? name = some (.file content)
    ↔ ∃ target, host.resolve name = .ok target ∧ host.nodes[target]? = some (.file content) := by
  unfold find?
  cases host.resolve name with
  | error fault => simp
  | ok id => simp

/-- A request that is granted leaves every file as it was, but for the one that it empties. -/
theorem Granted.stores (granted : before.Granted request id after node) {disk : NodeId} {bytes : Bytes}
    (stores : before.Stores disk bytes)
    (kept : disk = node → request.truncate = false) : after.Stores disk bytes := by
  obtain ⟨content, there, same⟩ := stores
  refine ⟨content, ?_, same⟩
  by_cases own : disk = node
  · subst own
    exact granted.kept (kept rfl) content there
  · exact (granted.file disk own content).mpr there

theorem Granted.descriptor (granted : before.Granted request id after node) {other : DescriptorId}
    {descriptor : Descriptor} (there : before.descriptors[other]? = some descriptor) :
    after.descriptors[other]? = some descriptor := by
  rw [granted.descriptors, List.getElem?_append_left (List.getElem?_eq_some_iff.mp there).1, there]

section Names

variable (grows : before.Grows after node)

include grows

theorem Grows.walk (reached : before.walk directory path = .ok target) :
    after.walk directory path = .ok target := by
  induction path generalizing directory with
  | nil => exact reached
  | cons component rest ih =>
      unfold Host.walk at reached ih ⊢
      rw [List.foldlM_cons] at reached ⊢
      cases stepped : before.step directory component with
      | error fault =>
          rw [stepped] at reached
          cases reached
      | ok next =>
          rw [stepped] at reached
          rw [grows.step directory component next stepped]
          exact ih reached

theorem Grows.walked (reached : after.walk directory path = .ok target) (other : target ≠ node) :
    before.walk directory path = .ok target := by
  induction path generalizing directory with
  | nil => exact reached
  | cons component rest ih =>
      unfold Host.walk at reached ih ⊢
      rw [List.foldlM_cons] at reached ⊢
      cases stepped : after.step directory component with
      | error fault =>
          rw [stepped] at reached
          cases reached
      | ok next =>
          rw [stepped] at reached
          rcases grows.found directory component next stepped with early | ⟨rfl, plain⟩
          · rw [early]
            exact ih reached
          · cases rest with
            | nil =>
                cases reached
                exact (other rfl).elim
            | cons below later =>
                change (List.foldlM after.step next (below :: later) : Except Fault NodeId) = _ at reached
                rw [List.foldlM_cons, step_plain plain] at reached
                cases reached

theorem Grows.resolve (reached : before.resolve name = .ok target) : after.resolve name = .ok target := by
  rw [resolve_ok_iff] at reached ⊢
  obtain ⟨checked, walked, stands⟩ := reached
  exact ⟨checked, grows.walk walked, by rwa [grows.isDirectory]⟩

theorem Grows.resolved (reached : after.resolve name = .ok target) (other : target ≠ node) :
    before.resolve name = .ok target := by
  rw [resolve_ok_iff] at reached ⊢
  obtain ⟨checked, walked, stands⟩ := reached
  exact ⟨checked, grows.walked walked other, by rwa [← grows.isDirectory]⟩

/-- A name stands for the file that it stood for before, unless it stands for the opened one. -/
theorem Grows.find? (other : after.resolve name ≠ .ok node) (content : Content) :
    after.find? name = some (.file content) ↔ before.find? name = some (.file content) := by
  rw [find?_file_iff, find?_file_iff]
  constructor
  · rintro ⟨target, reached, there⟩
    have apart : target ≠ node := by
      rintro rfl
      exact other reached
    exact ⟨target, grows.resolved reached apart, (grows.file target apart content).mp there⟩
  · rintro ⟨target, reached, there⟩
    have still := grows.resolve reached
    have apart : target ≠ node := by
      rintro rfl
      exact other still
    exact ⟨target, still, (grows.file target apart content).mpr there⟩

end Names

end Calculator.Host

namespace Calculator.Files

theorem newEntry_node {before host : Host} {request : OpenRequest} {descriptor : DescriptorId}
    {node : NodeId} (granted : before.Granted request descriptor host node) (id : FileId) (name : String)
    (mode : Mode) : (newEntry host id descriptor name mode true).node = some node := by
  show host.node? descriptor = some node
  rw [Host.node?, granted.descriptors, granted.id, List.getElem?_concat_length]
  rfl

end Calculator.Files
