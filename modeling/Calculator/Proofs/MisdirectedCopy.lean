import Calculator.Proofs.Gateway
import Calculator.Proofs.OpenFile

/-!
# Copies against the direction of a file

A copy from a file that is not open for reading, or into one that is not open for writing, is refused,
but the file is moved first: to the source index, or to a destination index that is not negative. The
refused copy leaves the machine as a change of position would leave it, and nothing else is different.
-/

namespace Calculator

namespace Files

variable {files sized : Files} {id : FileId} {entry : Entry}

/-- A change of position is the same one after the size of the file was asked for. -/
theorem setPosition_sized (found : files.table.find? id = some entry)
    (ordinary : id.isStandard = false) {size : Int} (asked : Files.size id files = (.ok size, sized))
    (position : Int) (taken : Position.toAbsolute position = .ok position.toNat) :
    setPosition id position sized = setPosition id position files := by
  have own := FileTable.id_of_find? found
  obtain ⟨channel, flushed, rfl⟩ := size_ok found asked
  have listed := FileTable.find?_setStream_self found channel.stream
  have moved := Transfer.reposition_flushed flushed position.toNat
  rw [setPosition_run found ordinary, setPosition_run listed ordinary, taken]
  simp only [run, moved, own, FileTable.setStream_setStream]

end Files

namespace Copy

variable {machine after : Machine} {id : FileId} {entry : Entry} {blocks : NamedBlocks}
  {source destination : Value} {error : CopyError}

def isFileNotOpen : CopyError → Bool
  | .fileNotOpen _ => true
  | _ => false

theorem fileFault_misses {wrap : FileError → CopyError} (wraps : ∀ error, isFileNotOpen (wrap error) = false)
    {error : FileError} (told : isFileNotOpen (fileFault id wrap error) = true) :
    error.misses = true := by
  cases error <;> first | rfl | exact absurd told (by simp [fileFault, wraps])

theorem onFiles_run {α : Type} (id : FileId) (wrap : FileError → CopyError) (operation : FileM α)
    (machine : Machine) :
    onFiles id wrap operation machine
      = ((operation machine.files).1.mapError (fileFault id wrap),
        { machine with files := (operation machine.files).2 }) := rfl

theorem onFiles_error {α : Type} {wrap : FileError → CopyError} {operation : FileM α}
    {reason : FileError} {files : Files} (failed : operation machine.files = (.error reason, files)) :
    onFiles id wrap operation machine = (.error (fileFault id wrap reason), { machine with files }) := by
  rw [onFiles_run, failed]
  rfl

section Checks

/-! What is checked before a copy, and what it brings, has nothing to do with open files. -/

theorem checkSourceBlock_other (id : BlockId) (refused : checkSourceBlock blocks id = .error error) :
    isFileNotOpen error = false := by
  unfold checkSourceBlock at refused
  grind [isFileNotOpen]

theorem checkDestinationBlock_other (id : BlockId)
    (refused : checkDestinationBlock blocks id = .error error) : isFileNotOpen error = false := by
  unfold checkDestinationBlock at refused
  grind [isFileNotOpen]

theorem checkProtection_other (refused : checkProtection blocks source destination = .error error) :
    isFileNotOpen error = false := by
  have onSource (id : BlockId) : checkSourceBlock blocks id = .error error → _ :=
    checkSourceBlock_other id
  have onDestination (id : BlockId) : checkDestinationBlock blocks id = .error error → _ :=
    checkDestinationBlock_other id
  unfold checkProtection at refused
  simp only [bind, Except.bind, pure, Except.pure, throw, throwThe, MonadExceptOf.throw] at refused
  grind [isFileNotOpen]

theorem permit_other {start : Int} (refused : permit blocks source start destination = .error error) :
    isFileNotOpen error = false := by
  have onProtection : checkProtection blocks source destination = .error error → _ :=
    checkProtection_other
  unfold permit checkKinds at refused
  simp only [bind, Except.bind, pure, Except.pure, throw, throwThe, MonadExceptOf.throw] at refused
  grind [isFileNotOpen]

theorem bytesForText_other {start : Nat} {count : Int}
    (refused : bytesForText blocks source start count = .error error) : isFileNotOpen error = false := by
  unfold bytesForText octetRun blockOf at refused
  simp only [bind, Except.bind, pure, Except.pure] at refused
  grind [isFileNotOpen]

end Checks

theorem route_into_file (file : destination.data = .file id) (start : Nat) (count position : Int)
    (exclusive : Bool) (machine : Machine) :
    route source start count destination position exclusive machine
      = match bytesForText machine.blocks source start count with
        | .error error => (.error error, machine)
        | .ok bytes =>
            if bytes.isEmpty then (.ok destination, machine)
            else (intoFile id bytes position >>= fun _ => pure destination : CopyM Value) machine := by
  have step : route source start count destination position exclusive machine
      = (liftM (bytesForText machine.blocks source start count) >>= fun bytes =>
          if bytes.isEmpty then pure destination
          else intoFile id bytes position >>= fun _ => pure destination : CopyM Value) machine := by
    unfold route
    rw [Effect.get_bind_run, file]
  rw [step]
  cases bytesForText machine.blocks source start count with
  | error error => rfl
  | ok bytes =>
      rw [Effect.lift_ok_bind_run]
      by_cases empty : bytes.isEmpty = true
      · simp only [if_pos empty]
        rfl
      · simp only [if_neg empty]

/-- Where an operation does not miss the file, it is not what the refusal is about. -/
theorem onFiles_continues {α β : Type} {wrap : FileError → CopyError} {operation : FileM α}
    {next : α → CopyM β} (wraps : ∀ error, isFileNotOpen (wrap error) = false)
    (hits : ∀ reason, (operation machine.files).1 = .error reason → reason.misses = false)
    (refused : (onFiles id wrap operation >>= next) machine = (.error error, after))
    (told : isFileNotOpen error = true) :
    ∃ result files, operation machine.files = (.ok result, files)
      ∧ next result { machine with files } = (.error error, after) := by
  have ran := onFiles_run id wrap operation machine
  rcases asked : operation machine.files with ⟨answer, files⟩
  rw [asked] at ran hits
  cases answer with
  | ok result =>
      rw [Effect.bind_ok ran] at refused
      exact ⟨result, files, rfl, refused⟩
  | error reason =>
      rw [Effect.bind_error ran] at refused
      cases refused
      have misses := hits reason rfl
      rw [fileFault_misses wraps told] at misses
      cases misses

section Refused

variable (found : machine.files.table.find? id = some entry) (ordinary : id.isStandard = false)

include found ordinary

/-- A copy from a file that cannot be read asks for its size and moves it before it is refused. -/
theorem fileIntoBlock_refused {start : Nat} {count position : Int} (unreadable : entry.mode.reading = false)
    (refused : fileIntoBlock id start count destination position machine = (.error error, after))
    (told : isFileNotOpen error = true) :
    ∃ size sized, Files.size id machine.files = (.ok size, sized)
      ∧ Files.setPosition id start sized = (.ok (), after.files)
      ∧ after = { machine with files := after.files } := by
  have seeking (error : FileError) : isFileNotOpen (.seekFailed error) = false := rfl
  unfold fileIntoBlock at refused
  rw [if_neg (by simp [ordinary])] at refused
  obtain ⟨size, sized, asked, measured⟩ := onFiles_continues seeking
    (fun _ failed => Files.size_misses found failed) refused told
  refine ⟨size, sized, asked, ?_⟩
  obtain ⟨channel, _, rfl⟩ := Files.size_ok found asked
  have listed := FileTable.find?_setStream_self found channel.stream
  dsimp only at measured
  split at measured
  · cases measured
    cases told
  split at measured
  · cases measured
  obtain ⟨_, moved, positioned, read⟩ := onFiles_continues seeking
    (fun _ failed => Files.setPosition_misses listed ordinary failed) measured told
  obtain ⟨_, reached, _, rfl⟩ := Files.setPosition_ok listed ordinary positioned
  have refusal := Files.readBytes_refused ⟨_, reached.host⟩
    (FileTable.find?_setStream_self listed reached.stream) unreadable
  rw [Effect.bind_error (onFiles_error (refusal _))] at read
  cases read
  exact ⟨positioned, rfl⟩

/-- A copy into a file that cannot be written moves it, where a position is given, before it is
refused. -/
theorem intoFile_refused {bytes : Bytes} {position : Int} (unwritable : entry.mode.writing = false)
    (refused : intoFile id bytes position machine = (.error error, after))
    (told : isFileNotOpen error = true) :
    if position < 0 then after = machine
    else Files.setPosition id position machine.files = (.ok (), after.files)
      ∧ after = { machine with files := after.files } := by
  have seeking (error : FileError) : isFileNotOpen (.seekFailed error) = false := rfl
  have notInput : (id == FileId.stdin) = false := by
    apply beq_eq_false_iff_ne.mpr
    rintro rfl
    cases ordinary
  unfold intoFile at refused
  simp only [notInput, ordinary, Bool.false_eq_true, if_false, Bool.not_false, Bool.and_true,
    decide_eq_true_eq] at refused
  by_cases behind : position < 0
  · rw [if_pos behind]
    rw [if_neg (Int.not_le.mpr behind)] at refused
    have refusal := Files.write_refused machine.files found unwritable bytes
    rw [Effect.bind_error (onFiles_error refusal)] at refused
    cases refused
    rfl
  · rw [if_neg behind]
    rw [if_pos (Int.not_lt.mp behind)] at refused
    obtain ⟨_, moved, positioned, written⟩ := onFiles_continues seeking
      (fun _ failed => Files.setPosition_misses found ordinary failed) refused told
    obtain ⟨_, reached, _, rfl⟩ := Files.setPosition_ok found ordinary positioned
    have refusal := Files.write_refused ⟨_, reached.host⟩
      (FileTable.find?_setStream_self found reached.stream) unwritable bytes
    rw [Effect.bind_error (onFiles_error refusal)] at written
    cases written
    exact ⟨positioned, rfl⟩

end Refused

/-- The copy needs the file of `id` in a direction that its mode does not have. It begins with the file
at `goal`, or where it stands when that is negative. -/
inductive Misdirected (source : Value) (start : Int) (destination : Value) (position : Int)
    (id : FileId) (mode : Mode) : Int → Prop
  | source (file : source.data = .file id) (block : isBlock destination.kind = true)
      (unreadable : mode.reading = false) :
      Misdirected source start destination position id mode start
  | destination (file : destination.data = .file id) (unwritable : mode.writing = false) :
      Misdirected source start destination position id mode position

theorem misdirected_moves {start count position goal : Int} {exclusive : Bool}
    (found : machine.files.table.find? id = some entry) (ordinary : id.isStandard = false)
    (misdirected : Misdirected source start destination position id entry.mode goal)
    (refused : copy source start count destination position exclusive machine
      = (.error (.fileNotOpen id), after)) :
    if goal < 0 then after = machine
    else Files.setPosition id goal machine.files = (.ok (), after.files)
      ∧ after = { machine with files := after.files } := by
  rw [copy_run] at refused
  cases admitted : permit machine.blocks source start destination with
  | error reason =>
      rw [admitted] at refused
      have other := permit_other admitted
      cases refused
      cases other
  | ok _ =>
      rw [admitted] at refused
      dsimp only at refused
      cases misdirected with
      | source file block unreadable =>
          have positive := (permit_checks.mp admitted).2.2.1
          rw [route_of_file block file] at refused
          obtain ⟨size, sized, asked, moved, aside⟩ :=
            fileIntoBlock_refused found ordinary unreadable refused rfl
          rw [Int.toNat_of_nonneg positive] at moved
          -- The size was asked for with the output written, and so the move is that of the first state.
          obtain ⟨channel, _, rfl⟩ := Files.size_ok found asked
          have listed := FileTable.find?_setStream_self found channel.stream
          have taken := (Files.setPosition_ok listed ordinary moved).1
          rw [Files.setPosition_sized found ordinary asked start taken] at moved
          rw [if_neg (Int.not_lt.mpr positive)]
          exact ⟨moved, aside⟩
      | destination file unwritable =>
          rw [route_into_file file] at refused
          cases brought : bytesForText machine.blocks source start.toNat count with
          | error reason =>
              rw [brought] at refused
              have other := bytesForText_other brought
              cases refused
              cases other
          | ok bytes =>
              rw [brought] at refused
              dsimp only at refused
              split at refused
              · cases refused
              · rcases ran : intoFile id bytes position machine with ⟨answer, between⟩
                cases answer with
                | ok _ =>
                    rw [Effect.bind_ok ran] at refused
                    cases refused
                | error reason =>
                    rw [Effect.bind_error ran] at refused
                    cases refused
                    exact intoFile_refused found ordinary unwritable ran rfl

end Copy

/-- A copy that is refused for the direction of an open file leaves the machine as a change of position
to `goal` would: the file is there, with its output written and nothing read ahead, and its content is
what it was. Only where `goal` is negative nothing has happened. -/
theorem misdirected_copy_moves_file {machine after : Machine} {source destination : Value}
    {start count position goal : Int} {exclusive : Bool} {id : FileId} {entry : Entry}
    (found : machine.files.table.find? id = some entry) (ordinary : id.isStandard = false)
    (misdirected : Copy.Misdirected source start destination position id entry.mode goal)
    (refused : Copy.copy source start count destination position exclusive machine
      = (.error (.fileNotOpen id), after)) :
    (if goal < 0 then after = machine
      else Files.setPosition id goal machine.files = (.ok (), after.files)
        ∧ after = { machine with files := after.files })
      ∧ ∀ descriptor content,
        machine.files.host.open? entry.stream.descriptor = some (descriptor, .file content) →
        after.files.contentOf? id = machine.files.contentOf? id
          ∧ (Files.tell id after.files).1
            = if goal < 0 then (Files.tell id machine.files).1 else .ok goal := by
  have moves := Copy.misdirected_moves found ordinary misdirected refused
  refine ⟨moves, ?_⟩
  intro descriptor content regular
  by_cases behind : goal < 0
  · rw [if_pos behind] at moves ⊢
    rw [moves]
    exact ⟨rfl, rfl⟩
  · rw [if_neg behind] at moves ⊢
    exact Files.setPosition_file found ordinary regular moves.1

namespace MisdirectedSample

def written : Machine :=
  { Machine.new {} OneFile.host with files := (Files.write ⟨3⟩ [0x78, 0x79, 0x7A] (OneFile.opened "w")).2 }

def begun : Machine :=
  { Machine.new {} OneFile.host with files := (Files.readChar ⟨3⟩ (OneFile.opened "r")).2 }

def writtenEntry : Entry where
  id := ⟨3⟩
  name := "a"
  mode := { base := .write, binary := false, update := false }
  node := some 10
  stream := { Stream.new 3 true with pending := [0x78, 0x79, 0x7A], direction := .write }

def fromWritten : Except CopyError Value × Machine :=
  Copy.copy (.ofFile ⟨3⟩) 1 (-1) (.ofBlock (Block.ofBytes [] 4)) 0 false written

def intoBegun : Except CopyError Value × Machine :=
  Copy.copy (.ofText [0x51]) 0 (-1) (.ofFile ⟨3⟩) 4 false begun

theorem refused_source_is_moved :
    Files.setPosition ⟨3⟩ 1 written.files = (.ok (), fromWritten.2.files)
      ∧ (Files.tell ⟨3⟩ written.files).1 = .ok 3 ∧ (Files.tell ⟨3⟩ fromWritten.2.files).1 = .ok 1
      ∧ fromWritten.2.files.contentOf? ⟨3⟩ = some [0x78, 0x79, 0x7A] := by
  have found : written.files.table.find? ⟨3⟩ = some writtenEntry := by cbv
  have regular : written.files.host.open? writtenEntry.stream.descriptor
      = some ({ node := 10, offset := 0, appends := false }, .file Content.empty) := by cbv
  have refused : fromWritten = (.error (.fileNotOpen ⟨3⟩), fromWritten.2) := by
    refine Prod.ext ?_ rfl
    cbv
  have moved := misdirected_copy_moves_file found rfl (.source rfl rfl rfl) refused
  obtain ⟨content, place⟩ := moved.2 _ _ regular
  refine ⟨moved.1.1, by cbv, place, content.trans ?_⟩
  cbv

/-- The refused copy takes the file from its second byte to its fifth. -/
theorem refused_destination_is_moved :
    intoBegun.1 = .error (.fileNotOpen ⟨3⟩)
      ∧ (Files.tell ⟨3⟩ begun.files).1 = .ok 1 ∧ (Files.tell ⟨3⟩ intoBegun.2.files).1 = .ok 4
      ∧ (Files.readChar ⟨3⟩ begun.files).1 = .ok (some 0x62)
      ∧ (Files.readChar ⟨3⟩ intoBegun.2.files).1 = .ok (some 0x65) := by
  refine ⟨?_, ?_, ?_, ?_, ?_⟩ <;> cbv

end MisdirectedSample

end Calculator
