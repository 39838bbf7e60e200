import Calculator.File.Listing
import Calculator.Proofs.FileTableRun
import Calculator.Proofs.OpenFile
import Calculator.Proofs.PendingOutput

/-!
# The listing of open files

Whatever has been done with the files, a listing has one record for each entry: under the first entry
on a node stand the later entries on it, and the first entries stand in the order of the table. Files,
streams and host are after it as they were.
-/

namespace Calculator

namespace Listing

section Groups

variable {α β κ : Type}

theorem flatMap_groups_perm (belongs : α → α → Bool) (items : List α) :
    ((groups belongs items).flatMap fun group => group.1 :: group.2).Perm items := by
  fun_induction groups belongs items with
  | case1 => exact .refl []
  | case2 head rest ih =>
      rw [List.flatMap_cons, List.cons_append]
      apply List.Perm.cons head
      exact (ih.append_left _).trans (List.filter_append_perm (belongs head) rest)

theorem mem_of_mem_groups {belongs : α → α → Bool} {items : List α} {group : α × List α}
    (member : group ∈ groups belongs items) : ∀ item ∈ group.1 :: group.2, item ∈ items := by
  intro item inside
  apply (flatMap_groups_perm belongs items).mem_iff.mp
  exact List.mem_flatMap.mpr ⟨group, member, inside⟩

theorem groups_map (belongs : β → β → Bool) (view : α → β) (items : List α) :
    groups belongs (items.map view)
      = (groups (fun one other => belongs (view one) (view other)) items).map
        (Prod.map view (List.map view)) := by
  fun_induction groups (fun one other => belongs (view one) (view other)) items with
  | case1 => simp [groups]
  | case2 head rest ih =>
      rw [List.map_cons, groups, List.filter_map, remaining, List.filter_map, List.map_cons, ← ih]
      rfl

variable [LinearOrder α] [DecidableEq κ] {key : α → κ} {head : α} {rest : List α}

def isFirst (key : α → κ) (items : List α) (item : α) : Bool :=
  items.all fun earlier => decide (earlier < item → key earlier ≠ key item)

def followers (key : α → κ) (items : List α) (head : α) : List α :=
  items.filter fun later => decide (head < later ∧ key later = key head)

theorem isFirst_head (below : ∀ other ∈ rest, head < other) :
    isFirst key (head :: rest) head = true := by
  simp only [isFirst, List.all_cons, List.all_eq_true, Bool.and_eq_true, decide_eq_true_eq]
  constructor
  · exact fun before => absurd before (lt_irrefl head)
  · exact fun other member before => absurd (below other member) before.asymm

/-- An item behind `head` is first with its key where it is so among those that have another key than
`head`. -/
theorem isFirst_cons (below : ∀ other ∈ rest, head < other) {item : α} (member : item ∈ rest) :
    isFirst key (head :: rest) item
      = (!decide (key head = key item)
        && isFirst key (remaining (fun one other => decide (key one = key other)) head rest) item) := by
  rw [Bool.eq_iff_iff]
  simp only [isFirst, remaining, List.all_cons, List.all_eq_true, Bool.and_eq_true,
    decide_eq_true_eq, List.mem_filter, Bool.not_eq_true', decide_eq_false_iff_not]
  constructor
  · rintro ⟨apart, first⟩
    exact ⟨apart (below item member), fun other inside => first other inside.1⟩
  · rintro ⟨apart, first⟩
    refine ⟨fun _ => apart, ?_⟩
    intro other inside before equal
    apply first other ⟨inside, ?_⟩ before equal
    rw [equal]
    exact apart

theorem followers_head (below : ∀ other ∈ rest, head < other) :
    followers key (head :: rest) head = rest.filter fun other => decide (key head = key other) := by
  rw [followers, List.filter_cons_of_neg (by simp)]
  apply List.filter_congr
  intro other member
  simp [below other member, eq_comm]

theorem followers_cons {item : α} (before : head < item) (apart : key head ≠ key item) :
    followers key (head :: rest) item
      = followers key (remaining (fun one other => decide (key one = key other)) head rest) item := by
  rw [followers, List.filter_cons_of_neg (by simp [before.asymm]), followers, remaining,
    List.filter_filter]
  apply List.filter_congr
  intro other _
  by_cases equal : key other = key item
  · simp [equal, apart]
  · simp [equal]

/-- Groups by a key: each item that is first with its key, with the later ones that have it. -/
theorem groups_of_sorted (key : α → κ) {items : List α} (sorted : items.Pairwise (· < ·)) :
    groups (fun one other => decide (key one = key other)) items
      = (items.filter (isFirst key items)).map fun head => (head, followers key items head) := by
  fun_induction groups (fun one other => decide (key one = key other)) items with
  | case1 => rfl
  | case2 head rest ih =>
      obtain ⟨below, sortedRest⟩ := List.pairwise_cons.mp sorted
      -- No item that remains has the key of one that is left out, so either list tells which are first.
      have firsts : rest.filter (isFirst key (head :: rest))
          = (remaining (fun one other => decide (key one = key other)) head rest).filter
            (isFirst key (remaining (fun one other => decide (key one = key other)) head rest)) := by
        rw [remaining, List.filter_filter]
        apply List.filter_congr
        intro item member
        rw [isFirst_cons below member, Bool.and_comm, remaining]
      rw [ih (sortedRest.filter _), List.filter_cons_of_pos (isFirst_head below), List.map_cons,
        followers_head below, firsts]
      congr 1
      apply List.map_congr_left
      intro item member
      have inside := List.mem_filter.mp (List.mem_of_mem_filter member)
      rw [followers_cons (below item inside.1) (by simpa using inside.2)]

end Groups

end Listing

theorem mapM_unchanged {α β σ : Type} {action : α → StateM σ β} {answer : α → β} {state : σ}
    {items : List α} (each : ∀ item ∈ items, action item state = (answer item, state)) :
    items.mapM action state = (items.map answer, state) := by
  induction items with
  | nil => rfl
  | cons item rest ih =>
      have first := each item List.mem_cons_self
      have others := ih fun other member => each other (List.mem_cons_of_mem item member)
      rw [List.mapM_cons, List.map_cons]
      simp [bind, StateT.bind, pure, StateT.pure, first, others]

namespace Files

variable {files : Files}

theorem position_unchanged (channel : Channel) : (Transfer.position channel).2 = channel := by
  rw [Transfer.position]
  split
  · rfl
  · rfl

theorem run_position (distinct : files.table.ids.Nodup) {entry : Entry}
    (present : entry ∈ files.table.entries) : (run entry Transfer.position files).2 = files := by
  have found := FileTable.find?_of_mem distinct present
  have still := position_unchanged { stream := entry.stream, host := files.host }
  show Files.mk (files.table.setStream entry.id (Transfer.position _).2.stream)
    (Transfer.position _).2.host = files
  rw [still, setStream_found distinct found]

/-- The text that describes an entry, and files as they were. -/
theorem describe_run (distinct : files.table.ids.Nodup) {entry : Entry}
    (present : entry ∈ files.table.entries) :
    ∃ state, describe entry.id true files
      = ("FILE " ++ entry.id.display ++ " \"" ++ entry.name ++ "\" (" ++ entry.mode.display ++ state
        ++ ")", files) := by
  have found := FileTable.find?_of_mem distinct present
  have described : describe entry.id true files = describeEntry entry files := by
    simp [describe, bind, StateT.bind, get, getThe, MonadStateOf.get, StateT.get, pure, found]
  rw [described]
  exact ⟨_, Prod.ext rfl (run_position distinct present)⟩

def record (files : Files) (entry : Entry) : String :=
  (describe entry.id true files).1

/-- The size that the host tells for an entry. -/
def shownSize (files : Files) (entry : Entry) : Nat :=
  match files.host.size entry.stream.descriptor with
  | .ok size => size
  | .error _ => 0

def Known (files : Files) (entry : Entry) : Prop :=
  (files.host.open? entry.stream.descriptor).isSome = true

def headText (files : Files) (entry : Entry) : String :=
  "\t" ++ files.record entry ++ " size = " ++ Positional.decimal (files.shownSize entry) ++ "\n"

def aliasText (files : Files) (entry : Entry) : String :=
  "\t  = " ++ files.record entry ++ "\n"

def groupText (files : Files) (group : Entry × List Entry) : String :=
  files.headText group.1 ++ String.join (group.2.map files.aliasText)

def summary (files : Files) : String :=
  "\tNumber open = " ++ Positional.decimal files.table.entries.length ++ "\n\tLastid = "
    ++ Positional.decimal files.table.lastId ++ "\n"

theorem describe_eq (distinct : files.table.ids.Nodup) {entry : Entry}
    (present : entry ∈ files.table.entries) :
    describe entry.id true files = (files.record entry, files) := by
  obtain ⟨state, described⟩ := describe_run distinct present
  rw [record, described]

theorem size_of_known {entry : Entry} (known : files.Known entry) :
    files.host.size entry.stream.descriptor = .ok (files.shownSize entry) := by
  obtain ⟨⟨descriptor, node⟩, opened⟩ := Option.isSome_iff_exists.mp known
  rw [shownSize, Host.size, opened]
  cases node with
  | file content => rfl
  | directory => rfl
  | pipe queued => rfl
  | fullDevice => rfl
  | nullDevice => rfl

theorem node?_of_known {entry : Entry} (known : files.Known entry) :
    (files.host.node? entry.stream.descriptor).isSome = true := by
  obtain ⟨⟨descriptor, node⟩, opened⟩ := Option.isSome_iff_exists.mp known
  rw [Host.node?_of_open? opened]
  rfl

theorem headLine_run (distinct : files.table.ids.Nodup) {entry : Entry}
    (present : entry ∈ files.table.entries) (known : files.Known entry) :
    headLine files.host entry files = (files.headText entry, files) := by
  have described := describe_eq distinct present
  have sized := size_of_known known
  simp [headLine, bind, StateT.bind, pure, StateT.pure, described, sized, headText, String.append_assoc]

theorem aliasLine_run (distinct : files.table.ids.Nodup) {entry : Entry}
    (present : entry ∈ files.table.entries) :
    aliasLine entry files = (files.aliasText entry, files) := by
  have described := describe_eq distinct present
  simp [aliasLine, bind, StateT.bind, pure, StateT.pure, described, aliasText]

theorem groupLines_run (distinct : files.table.ids.Nodup) {group : Entry × List Entry}
    (present : ∀ entry ∈ group.1 :: group.2, entry ∈ files.table.entries)
    (known : files.Known group.1) :
    groupLines files.host group files = (files.groupText group, files) := by
  have head := headLine_run distinct (present group.1 List.mem_cons_self) known
  have others : group.2.mapM aliasLine files = (group.2.map files.aliasText, files) := by
    apply mapM_unchanged
    intro entry member
    exact aliasLine_run distinct (present entry (List.mem_cons_of_mem group.1 member))
  simp [groupLines, bind, StateT.bind, pure, StateT.pure, head, others, groupText]

/-- A listing changes nothing. -/
theorem listing_run (distinct : files.table.ids.Nodup)
    (known : ∀ entry ∈ files.table.entries, files.Known entry) :
    listing files
      = (String.join ((Listing.groups (Entry.aliases files.host) files.table.entries).map
          files.groupText) ++ files.summary, files) := by
  have lines : (Listing.groups (Entry.aliases files.host) files.table.entries).mapM
      (groupLines files.host) files
      = ((Listing.groups (Entry.aliases files.host) files.table.entries).map files.groupText,
        files) := by
    apply mapM_unchanged
    intro group member
    have present := Listing.mem_of_mem_groups member
    exact groupLines_run distinct present (known group.1 (present group.1 List.mem_cons_self))
  have listed : listing files
      = (fun ran : List String × Files =>
          (String.join ran.1 ++ "\tNumber open = " ++ Positional.decimal ran.2.table.entries.length
            ++ "\n\tLastid = " ++ Positional.decimal ran.2.table.lastId ++ "\n", ran.2))
        ((Listing.groups (Entry.aliases files.host) files.table.entries).mapM
          (groupLines files.host) files) := rfl
  -- The numbers are any texts here: their own ones would be evaluated.
  have told (text number last : String) :
      text ++ "\tNumber open = " ++ number ++ "\n\tLastid = " ++ last ++ "\n"
        = text ++ ("\tNumber open = " ++ number ++ "\n\tLastid = " ++ last ++ "\n") := by
    simp only [String.append_assoc]
  rw [listed, lines]
  exact congrArg (fun text => (text, files)) (told _ _ _)

abbrev Place (files : Files) : Type :=
  Fin files.table.entries.length

def entryAt (files : Files) (place : files.Place) : Entry :=
  files.table.entries[place]

def nodeAt (files : Files) (place : files.Place) : Option NodeId :=
  files.host.node? (files.entryAt place).stream.descriptor

def heads (files : Files) : List files.Place :=
  (List.finRange _).filter (Listing.isFirst files.nodeAt (List.finRange _))

def aliasesOf (files : Files) (head : files.Place) : List files.Place :=
  Listing.followers files.nodeAt (List.finRange _) head

theorem mem_heads {place : files.Place} :
    place ∈ files.heads ↔ ∀ earlier < place, files.nodeAt earlier ≠ files.nodeAt place := by
  simp [heads, Listing.isFirst, or_iff_not_imp_left]

theorem mem_aliasesOf {head later : files.Place} :
    later ∈ files.aliasesOf head ↔ head < later ∧ files.nodeAt later = files.nodeAt head := by
  simp [aliasesOf, Listing.followers]

def linesOf (files : Files) (head : files.Place) : String :=
  files.headText (files.entryAt head)
    ++ String.join ((files.aliasesOf head).map fun later => files.aliasText (files.entryAt later))

theorem entryAt_mem (place : files.Place) : files.entryAt place ∈ files.table.entries :=
  List.getElem_mem place.isLt

theorem groups_of_places (files : Files) :
    Listing.groups (fun one other => decide (files.nodeAt one = files.nodeAt other))
        (List.finRange files.table.entries.length)
      = files.heads.map fun head => (head, files.aliasesOf head) :=
  Listing.groups_of_sorted files.nodeAt (List.pairwise_lt_finRange files.table.entries.length)

theorem places_perm (files : Files) :
    (files.heads.flatMap fun head => head :: files.aliasesOf head).Perm (List.finRange _) := by
  have all := Listing.flatMap_groups_perm
    (fun one other => decide (files.nodeAt one = files.nodeAt other))
    (List.finRange files.table.entries.length)
  rw [groups_of_places, List.flatMap_map] at all
  exact all

theorem groups_of_entries (known : ∀ entry ∈ files.table.entries, files.Known entry) :
    Listing.groups (Entry.aliases files.host) files.table.entries
      = files.heads.map fun head =>
        (files.entryAt head, (files.aliasesOf head).map files.entryAt) := by
  have placed : (List.finRange _).map files.entryAt = files.table.entries :=
    List.map_getElem_finRange files.table.entries
  have told : (fun one other : files.Place =>
      Entry.aliases files.host (files.entryAt one) (files.entryAt other))
      = fun one other => decide (files.nodeAt one = files.nodeAt other) := by
    funext one other
    have opened := node?_of_known (known (files.entryAt one) (entryAt_mem one))
    rw [Entry.aliases, opened, Bool.true_and, Bool.eq_iff_iff, beq_iff_eq, decide_eq_true_eq]
    rfl
  rw [← placed, Listing.groups_map, told, groups_of_places, List.map_map]
  rfl

theorem listing_eq (distinct : files.table.ids.Nodup)
    (known : ∀ entry ∈ files.table.entries, files.Known entry) :
    listing files = (String.join (files.heads.map files.linesOf) ++ files.summary, files) := by
  have lines (head : files.Place) :
      files.groupText (files.entryAt head, (files.aliasesOf head).map files.entryAt)
        = files.linesOf head := by
    rw [groupText, List.map_map]
    rfl
  rw [listing_run distinct known, groups_of_entries known, List.map_map]
  simp only [Function.comp_def, lines]

/-- Every entry stands in one line of a listing. The first entries on their nodes come in the order of
the table, and each is followed by the later ones on its node in that order. -/
structure Grouped (files : Files) : Prop where
  once : (files.heads.flatMap fun head => head :: files.aliasesOf head).Perm (List.finRange _)
  firsts : ∀ place, place ∈ files.heads ↔
    ∀ earlier < place, files.nodeAt earlier ≠ files.nodeAt place
  inOrder : files.heads.Pairwise (· < ·)
  aliases : ∀ head later, later ∈ files.aliasesOf head ↔
    head < later ∧ files.nodeAt later = files.nodeAt head
  aliasesInOrder : ∀ head, (files.aliasesOf head).Pairwise (· < ·)

theorem grouped (files : Files) : files.Grouped where
  once := files.places_perm
  firsts := fun _ => mem_heads
  inOrder := (List.pairwise_lt_finRange _).filter _
  aliases := fun _ _ => mem_aliasesOf
  aliasesInOrder := fun _ => (List.pairwise_lt_finRange _).filter _

end Files

/-- A listing of known files is made of the lines of their groups, with the name, the mode and the size
of each file, and leaves the files as they were. -/
theorem listing_groups_entries (host : Host) (maxFiles readChunk : Nat) (adopt : Bool)
    (calls : List FileCall) :
    let files := FileCall.afterAll calls (Files.new host maxFiles readChunk adopt)
    (∀ entry ∈ files.table.entries, files.Known entry) →
      Files.listing files = (String.join (files.heads.map files.linesOf) ++ files.summary, files)
        ∧ files.Grouped
        ∧ files.table.ids.Nodup
        ∧ ∀ entry ∈ files.table.entries, (∃ state, files.record entry
            = "FILE " ++ entry.id.display ++ " \"" ++ entry.name ++ "\" (" ++ entry.mode.display
              ++ state ++ ")")
          ∧ files.host.size entry.stream.descriptor = .ok (files.shownSize entry) := by
  intro files known
  have kept := (FileCall.afterAll_counted calls
    (Files.new_counted host maxFiles readChunk adopt).1).1
  have distinct := kept.distinct
  refine ⟨Files.listing_eq distinct known, files.grouped, distinct, ?_⟩
  intro entry present
  obtain ⟨state, described⟩ := Files.describe_run distinct present
  exact ⟨⟨state, congrArg Prod.fst described⟩, Files.size_of_known (known entry present)⟩

namespace ListedSample

def calls : List FileCall :=
  [.openFile "a" "r", .openFile "b" "w", .openFile "a" "r+", .ask (.write ⟨5⟩ [0x78]),
    .openFile "b" "r"]

def files : Files := FileCall.afterAll calls (Files.new OneFile.host 20 1024 false)

/-- The handles 5 and 6 are aliases of 3 and 4. -/
theorem files_opened_by_turns_are_grouped :
    (∀ entry ∈ files.table.entries, files.Known entry)
      ∧ Files.listing files = (String.join (files.heads.map files.linesOf) ++ files.summary, files)
      ∧ files.Grouped
      ∧ ∀ head later : files.Place, later.val = head.val + 2 → 3 ≤ head.val →
        later ∈ files.aliasesOf head := by
  have all : files.table.entries.all
      (fun entry => (files.host.open? entry.stream.descriptor).isSome) = true := by cbv
  have known : ∀ entry ∈ files.table.entries, files.Known entry := List.all_eq_true.mp all
  have shown := listing_groups_entries OneFile.host 20 1024 false calls known
  have grouped : files.Grouped := shown.2.1
  have nodes : files.table.entries.map (fun entry => files.host.node? entry.stream.descriptor)
      = [some 7, some 8, some 9, some 10, some 11, some 10, some 11] := by cbv
  have told (place : files.Place) :
      [some 7, some 8, some 9, some 10, some 11, some 10, some 11][place.val]?
        = some (files.nodeAt place) := by
    rw [← nodes]
    simp [Files.nodeAt, Files.entryAt]
  refine ⟨known, shown.1, grouped, ?_⟩
  intro head later behind opened
  have size : files.table.entries.length = 7 := by simpa using congrArg List.length nodes
  have inside : later.val < files.table.entries.length := later.isLt
  have first := told head
  have second := told later
  apply (grouped.aliases head later).mpr
  have cases : head.val = 3 ∨ head.val = 4 := by omega
  constructor
  · exact Fin.lt_def.mpr (by omega)
  · apply Option.some.inj
    rw [← first, ← second, behind]
    rcases cases with three | four
    · rw [three]
      rfl
    · rw [four]
      rfl

end ListedSample

end Calculator
