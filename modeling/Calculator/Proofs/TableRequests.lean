import Calculator.Proofs.Settling
import Mathlib.Logic.Relation

/-!
# What a request does to the file table

A request finds the entry of its file and runs transfers on it, one after the other, each on the entry
as the one before left it. Nothing else changes. So what these transfers keep is kept by every request,
also by one that fails on its way.
-/

namespace Calculator

open Relation (ReflTransGen)

/-- The transfers that are run on an entry, those that write only where writing is asked for. -/
inductive Entry.Serves (entry : Entry) (writing : Bool) : {α : Type} → Transfer α → Prop
  | readChar : Serves entry writing (do Transfer.prepareRead; Transfer.readByte)
  | unread (byte : UInt8) (turned : entry.stream.direction = .read) :
      Serves entry writing (Transfer.unread byte)
  | readText (options : ReadOptions) (chunk : Nat) :
      Serves entry writing (Transfer.readText options chunk)
  | readBytes (count : Nat) :
      Serves entry writing (do Transfer.prepareRead; Transfer.readBytes count)
  | write (bytes : Bytes) (asked : writing = true) (writable : entry.mode.writing = true) :
      Serves entry writing (do Transfer.prepareWrite; Transfer.writeAll bytes)
  | flush : Serves entry writing Transfer.flush
  | reposition (target : Nat) : Serves entry writing (Transfer.reposition target)
  | rewind : Serves entry writing Transfer.rewind
  | position : Serves entry writing Transfer.position
  | size : Serves entry writing Transfer.size
  | search (needle : Bytes) (start finish : Nat) :
      Serves entry writing (Transfer.search needle start finish)
  | searchBack (needle : Bytes) (first last : Nat) :
      Serves entry writing (Transfer.searchBack needle first last)

theorem Entry.Serves.writing {entry : Entry} {α : Type} {transfer : Transfer α}
    (serves : entry.Serves false transfer) : entry.Serves true transfer := by
  cases serves with
  | write bytes asked => cases asked
  | _ => constructor <;> assumption

namespace Files

open Effect (Always)

variable {kept : Files → Files → Prop} {id : FileId} {writing : Bool} {α β : Type}

/-- A transfer is run on the entry that the table has for a handle. -/
inductive Ran (id : FileId) (writing : Bool) : Files → Files → Prop
  | on {files : Files} {entry : Entry} {α : Type} {transfer : Transfer α}
      (found : files.table.find? id = some entry) (serves : entry.Serves writing transfer) :
      Ran id writing files (run entry transfer files).2

/-- A relation between file tables that goes from one to the next and to those after. -/
structure Chain (kept : Files → Files → Prop) : Prop where
  refl : ∀ files, kept files files
  trans : ∀ first second third, kept first second → kept second third → kept first third

theorem path_chain (step : Files → Files → Prop) : Chain (ReflTransGen step) where
  refl := fun _ => .refl
  trans := fun _ _ _ => .trans

theorem Chain.along (chain : Chain kept) {step : Files → Files → Prop}
    (keeps : ∀ before after, step before after → kept before after) {first last : Files}
    (path : ReflTransGen step first last) : kept first last := by
  induction path with
  | refl => exact chain.refl first
  | tail _ stepped ih => exact chain.trans _ _ _ ih (keeps _ _ stepped)

/-- The program finds an open file and changes nothing. -/
def Looks (id : FileId) (lookup : FileM Entry) : Prop :=
  ∀ files, (lookup files).2 = files
    ∧ ∀ entry, (lookup files).1 = .ok entry → files.table.find? id = some entry

theorem entry_looks (id : FileId) : Looks id (Files.entry id) := by
  intro files
  cases found : files.table.find? id with
  | none =>
      rw [entry_missing found]
      exact ⟨rfl, fun _ missed => by cases missed⟩
  | some entry =>
      rw [entry_found found]
      exact ⟨rfl, fun _ same => by cases same; rfl⟩

/-- What is checked of an entry holds of it where it is found. -/
theorem Looks.require_passed {lookup : FileM Entry} {allowed : Entry → Bool} {error : FileError}
    {files : Files} {entry : Entry}
    (answered : ((do let entry ← lookup; if allowed entry then return entry else throw error :
      FileM Entry) files).1 = .ok entry) : allowed entry = true := by
  rcases ran : lookup files with ⟨answer, after⟩
  cases answer with
  | error reason =>
      rw [Effect.bind_error ran] at answered
      cases answered
  | ok found =>
      rw [Effect.bind_ok ran] at answered
      cases passed : allowed found with
      | false =>
          rw [passed] at answered
          cases answered
      | true =>
          rw [passed] at answered
          cases answered
          exact passed

theorem Looks.require {lookup : FileM Entry} (looks : Looks id lookup) (allowed : Entry → Bool)
    (error : FileError) :
    Looks id (do let entry ← lookup; if allowed entry then return entry else throw error) := by
  intro files
  obtain ⟨still, finds⟩ := looks files
  rcases ran : lookup files with ⟨answer, after⟩
  rw [ran] at still finds
  obtain rfl : after = files := still
  cases answer with
  | error reason =>
      rw [Effect.bind_error ran]
      exact ⟨rfl, fun _ missed => by cases missed⟩
  | ok entry =>
      rw [Effect.bind_ok ran]
      cases allowed entry with
      | false => exact ⟨rfl, fun _ missed => by cases missed⟩
      | true => exact ⟨rfl, fun _ same => by cases same; exact finds _ rfl⟩

theorem readableEntry_looks (id : FileId) : Looks id (readableEntry id) :=
  (entry_looks id).require (fun entry => entry.mode.reading) (.notReadable id)

theorem writableEntry_looks (id : FileId) : Looks id (writableEntry id) :=
  (entry_looks id).require (fun entry => entry.mode.writing) (.notWritable id)

/-- What is done with an entry right after it is found. -/
theorem Looks.always {lookup : FileM Entry} {next : Entry → FileM α} (chain : Chain kept)
    (looks : Looks id lookup)
    (continued : ∀ files entry, (lookup files).1 = .ok entry → files.table.find? id = some entry →
      kept files (next entry files).2) :
    Always kept (lookup >>= next) := by
  intro files
  obtain ⟨still, finds⟩ := looks files
  rcases ran : lookup files with ⟨answer, after⟩
  rw [ran] at still finds
  obtain rfl : after = files := still
  cases answer with
  | error reason =>
      rw [Effect.bind_error ran]
      exact chain.refl after
  | ok entry =>
      rw [Effect.bind_ok ran]
      exact continued after entry (congrArg Prod.fst ran) (finds entry rfl)

section Chain

variable (chain : Chain kept)

include chain

theorem map_always {program : FileM α} (always : Always kept program) (answer : α → β) :
    Always kept (do return answer (← program)) :=
  Always.bind chain.trans always fun _ => Always.pure chain.refl _

theorem lift_bind_always (answer : Except FileError α) {next : α → FileM β}
    (continued : ∀ result, Always kept (next result)) : Always kept (liftM answer >>= next) :=
  Always.bind chain.trans (Always.lift chain.refl answer) continued

end Chain

/-- The transfers that the requests of a handle run, one after the other. -/
abbrev Served (id : FileId) (writing : Bool) : Files → Files → Prop :=
  ReflTransGen (Ran id writing)

theorem served_chain (id : FileId) (writing : Bool) : Chain (Served id writing) :=
  path_chain (Ran id writing)

theorem run_served {files : Files} {entry : Entry} {transfer : Transfer α}
    (found : files.table.find? id = some entry) (serves : entry.Serves writing transfer) :
    Served id writing files (run entry transfer files).2 :=
  .single (.on found serves)

theorem lookup_run_served {lookup : FileM Entry} (looks : Looks id lookup) {transfer : Transfer α}
    (serves : ∀ entry : Entry, entry.Serves writing transfer) :
    Always (Served id writing) (lookup >>= fun entry => run entry transfer) :=
  looks.always (served_chain id writing) fun _ entry _ found => run_served found (serves entry)

theorem lookup_run_map_served {lookup : FileM Entry} (looks : Looks id lookup)
    {transfer : Transfer α} (serves : ∀ entry : Entry, entry.Serves writing transfer) (answer : α → β) :
    Always (Served id writing)
      (lookup >>= fun entry => run entry transfer >>= fun result => pure (answer result)) := by
  rw [← bind_assoc]
  exact map_always (served_chain id writing) (lookup_run_served looks serves) answer

theorem flush_served (writing : Bool) (id : FileId) : Always (Served id writing) (flush id) := by
  refine (entry_looks id).always (served_chain id writing) fun files entry _ found => ?_
  split
  · exact run_served found .flush
  · exact .refl

theorem rewind_served (id : FileId) : Always (Served id writing) (rewind id) :=
  lookup_run_served (entry_looks id) fun _ => .rewind

theorem write_served (id : FileId) (bytes : Bytes) : Always (Served id true) (write id bytes) :=
  (writableEntry_looks id).always (served_chain id true) fun _ _ answered found =>
    run_served found (.write bytes rfl (Looks.require_passed answered))

theorem reposition_served (id : FileId) (target : Nat) :
    Always (Served id writing)
      (Files.entry id >>= fun entry => run entry (Transfer.reposition target)) :=
  lookup_run_served (entry_looks id) fun _ => .reposition target

theorem seek_served (id : FileId) (offset whence : Int) :
    Always (Served id writing) (seek id offset whence) := by
  have chain := served_chain id writing
  refine lift_bind_always chain _ fun counted => Always.bind chain.trans ?_ fun start => ?_
  · refine (entry_looks id).always chain fun files entry _ found => ?_
    split
    · exact .refl
    · exact run_served found .position
    · exact run_served found .size
    · exact .refl
  · dsimp only
    split
    · exact Always.bind chain.trans (Always.throw chain.refl _) fun _ =>
        lift_bind_always chain _ fun target => reposition_served id target
    · exact lift_bind_always chain _ fun target => reposition_served id target

theorem setPosition_served (id : FileId) (position : Int) :
    Always (Served id writing) (setPosition id position) := by
  have chain := served_chain id writing
  have moved := lift_bind_always chain (Position.toAbsolute position) (reposition_served id)
  unfold setPosition
  dsimp only
  split
  · exact Always.bind chain.trans (Always.throw chain.refl _) fun _ => moved
  · exact moved

theorem perform_served (request : FileRequest) :
    Always (Served request.handle request.writes) request.perform := by
  cases request with
  | readChar id =>
      exact map_always (served_chain id _)
        (lookup_run_served (readableEntry_looks id) fun _ => .readChar) _
  | unreadChar id byte =>
      refine map_always (served_chain id _)
        ((readableEntry_looks id).always (served_chain id _) fun files entry _ found => ?_) _
      dsimp only
      split
      · exact .refl
      · rename_i turned
        exact run_served found (.unread byte (by simpa using turned))
  | readText id options =>
      refine map_always (served_chain id _)
        ((readableEntry_looks id).always (served_chain id _) fun files entry _ found => ?_) _
      exact run_served found (.readText options _)
  | readBytes id count =>
      exact map_always (served_chain id _)
        (lookup_run_served (readableEntry_looks id) fun _ => .readBytes count) _
  | write id bytes => exact map_always (served_chain id _) (write_served id bytes) _
  | writeTerminated id bytes =>
      have chain := served_chain id true
      exact map_always chain
        (Always.bind chain.trans (write_served id bytes) fun _ => write_served id [0]) _
  | seek id offset whence =>
      exact map_always (served_chain id _) (seek_served id offset whence) _
  | setPosition id position =>
      exact map_always (served_chain id _) (setPosition_served id position) _
  | rewind id => exact map_always (served_chain id _) (rewind_served id) _
  | tell id =>
      exact map_always (served_chain id _)
        (lookup_run_map_served (entry_looks id) (fun _ => .position) _) _
  | size id =>
      exact map_always (served_chain id _)
        (lookup_run_map_served (entry_looks id) (fun _ => .size) _) _
  | flush id => exact map_always (served_chain id _) (flush_served _ id) _
  | isEof id =>
      have chain := served_chain id false
      exact map_always chain ((entry_looks id).always chain fun files _ _ _ => .refl) _
  | search id needle start finish =>
      have chain := served_chain id false
      refine map_always chain (lift_bind_always chain _ fun first =>
        lift_bind_always chain _ fun last => ?_) _
      exact lookup_run_map_served (readableEntry_looks id) (fun _ => .search needle first last) _
  | searchBack id needle first last =>
      have chain := served_chain id false
      refine map_always chain (lift_bind_always chain _ fun high =>
        lift_bind_always chain _ fun low => ?_) _
      exact lookup_run_map_served (readableEntry_looks id) (fun _ => .searchBack needle high low) _

/-- Transfers that do not write are run on files of the table. -/
abbrev Visited : Files → Files → Prop :=
  ReflTransGen fun before after => ∃ id, Ran id false before after

theorem visited_chain : Chain Visited :=
  path_chain _

theorem Served.visited {before after : Files} (served : Served id false before after) :
    Visited before after :=
  ReflTransGen.mono (fun _ _ ran => ⟨id, ran⟩) _ _ served

theorem flushAll_visited : Always Visited flushAll := by
  intro files
  have flushed : (flushAll files).2
      = files.table.ids.foldl (fun files id => (flush id files).2) files := forAll_files flush _ files
  rw [flushed]
  refine List.foldlRecOn (motive := (Visited files ·)) files.table.ids _ .refl ?_
  intro later reached id _
  exact reached.trans (flush_served false id later).visited

theorem rewindEach_visited (ids : List FileId) : Always Visited (rewindEach ids) := by
  have rewinds (id : FileId) : Always Visited (rewind id) := fun files =>
    (rewind_served id files).visited
  induction ids with
  | nil => exact Always.pure visited_chain.refl _
  | cons id rest ih =>
      unfold rewindEach
      dsimp only
      split
      · refine Always.bind visited_chain.trans ?_ fun _ => ih
        exact Always.tryCatch visited_chain.trans (rewinds id) fun _ =>
          Always.pure visited_chain.refl _
      · exact Always.bind visited_chain.trans (rewinds id) fun _ => ih

theorem rewindAll_visited : Always Visited rewindAll :=
  Always.get_bind fun files => rewindEach_visited files.table.ids

end Files

end Calculator
