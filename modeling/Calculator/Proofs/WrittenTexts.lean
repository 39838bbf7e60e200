import Calculator.Builtin.Registry
import Calculator.Proofs.GatheredOutput

/-!
# Texts that are written and read again

A file that was just opened for writing and reading gives back the texts that are written to it, one by
one, and then null: texts with a NUL behind each, lines, and words between white space. However the
output is cut into calls and into buffers, the texts are the same; an empty one is not the end.
-/

namespace Calculator

namespace Registry

/-- Calls builtins one after the other, and lists what they answer. -/
def callAll : List (String × List Value) → Machine → List (Except CallError Value) × Machine
  | [], machine => ([], machine)
  | call :: rest, machine =>
      let ran := standard.call call.1 call.2 machine
      let later := callAll rest ran.2
      (ran.1 :: later.1, later.2)

end Registry

namespace Builtin

open Effect (Puts)

variable {id : FileId} {mode : Mode} {written bytes : Bytes} {machine : Machine}

def Done (answer : Except CallError Value) : Prop :=
  answer = .ok Value.null

theorem texts_of_values (code : ErrorCode) (texts : List Bytes) :
    (texts.map Value.ofText).mapM (textOr code) = (pure texts : BuiltinM (List Bytes)) := by
  induction texts with
  | nil => rfl
  | cons text rest ih =>
      rw [List.map_cons, List.mapM_cons, ih]
      rfl

/-- Writing texts is writing one after the other. -/
theorem putTexts_eq (fileCode textCode writeCode : ErrorCode) (put : FileId → Bytes → FileM Unit)
    (texts : List Bytes) :
    putTexts fileCode textCode writeCode put (Value.ofFile id :: texts.map Value.ofText)
      = (do
        texts.forM fun text => onFiles (hostFaultOr writeCode) (put id text)
        return Value.null) := by
  unfold putTexts
  rw [List.drop_one, List.tail_cons, texts_of_values]
  rfl

theorem onFiles_eq (fault : FileError → ErrorCode) (operation : FileM PUnit) (machine : Machine) :
    onFiles fault operation machine
      = ((operation machine.files).1.mapError fault,
        { machine with files := (operation machine.files).2 }) := rfl

theorem onFiles_puts {holds : Bytes → Files → Prop} {operation : FileM Unit}
    (puts : Puts holds operation bytes) (fault : FileError → ErrorCode) :
    Puts (fun written machine => holds written machine.files) (onFiles fault operation) bytes := by
  intro machine written held
  obtain ⟨succeeds, reached⟩ := puts machine.files written held
  simp only [onFiles_eq, Effect.mapError_eq_ok]
  exact ⟨succeeds, reached⟩

/-- A builtin that answers null once its steps are done answers an error code where they are not. -/
theorem settle_done (body : BuiltinM PUnit) (machine : Machine) :
    (Done (settle (body >>= fun _ => pure Value.null) machine).1
        ↔ ∃ result, (body machine).1 = .ok result)
      ∧ (settle (body >>= fun _ => pure Value.null) machine).2 = (body machine).2 := by
  unfold settle
  rcases ran : body machine with ⟨answer, after⟩
  cases answer with
  | ok result =>
      rw [Effect.bind_ok ran]
      exact ⟨⟨fun _ => ⟨result, rfl⟩, fun _ => rfl⟩, rfl⟩
  | error code =>
      rw [Effect.bind_error ran]
      refine ⟨⟨fun done => ?_, fun ⟨_, same⟩ => ?_⟩, rfl⟩
      · cases done
      · cases same

/-- What a builtin that writes texts does: it puts each of them, in its shape, behind what was written
to the file. It answers null where the largest file has room, and null only when all is put. -/
def Writes (name : String) (shape : Bytes → Bytes) : Prop :=
  ∀ (id : FileId) (mode : Mode), mode.writing = true → ∀ (machine : Machine) (written : Bytes),
    machine.files.Carries id mode (Channel.Gathered written) → ∀ texts : List Bytes, texts ≠ [] →
      let ran := Registry.standard.call name (Value.ofFile id :: texts.map Value.ofText) machine
      ((written ++ texts.flatMap shape).length ≤ Content.maxSize → Done ran.1)
        ∧ (Done ran.1 →
          ran.2.files.Carries id mode (Channel.Gathered (written ++ texts.flatMap shape)))

theorem putTexts_writes {name : String} {shape : Bytes → Bytes} {fileCode textCode writeCode : ErrorCode}
    {put : FileId → Bytes → FileM Unit}
    (called : Registry.standard.call name
      = countedFrom name 2 (putTexts fileCode textCode writeCode put))
    (puts : ∀ (id : FileId) (mode : Mode), mode.writing = true → ∀ text : Bytes,
      Puts (fun written files => files.Carries id mode (Channel.Gathered written)) (put id text)
        (shape text)) : Writes name shape := by
  intro id mode writing machine written carries texts nonempty ran
  have enough : ¬ (Value.ofFile id :: texts.map Value.ofText).length < 2 := by
    have some_text := List.length_pos_iff.mpr nonempty
    rw [List.length_cons, List.length_map]
    omega
  obtain ⟨succeeds, reached⟩ := Puts.forM
    (fun text => onFiles_puts (puts id mode writing text) (hostFaultOr writeCode)) texts machine written
    carries
  have settled : ran = settle (putTexts fileCode textCode writeCode put
      (Value.ofFile id :: texts.map Value.ofText)) machine := by
    show Registry.standard.call name _ machine = _
    rw [called, countedFrom, if_neg enough]
  obtain ⟨done, left⟩ := settle_done
    (texts.forM fun text => onFiles (hostFaultOr writeCode) (put id text)) machine
  rw [settled, putTexts_eq, done, left]
  exact ⟨succeeds, fun ⟨result, success⟩ => reached result success⟩

theorem fputs_writes : Writes "fputs" fun text => text :=
  putTexts_writes rfl fun _ _ => Files.write_puts

theorem fputstr_writes : Writes "fputstr" fun text => text ++ [0] :=
  putTexts_writes rfl fun _ _ => Files.writeTerminated_puts

/-- What a builtin that reads texts does: it cuts the next one off the bytes that are left. -/
def Reads (name : String) (options : ReadOptions) : Prop :=
  ∀ (id : FileId) (mode : Mode), mode.reading = true → ∀ (machine : Machine) (bytes : Bytes),
    machine.files.Carries id mode (Channel.Leaves bytes) →
      let ran := Registry.standard.call name [Value.ofFile id] machine
      ran.1 = .ok (textOrNull (options.cut bytes).1)
        ∧ ran.2.files.Carries id mode (Channel.Leaves (options.cut bytes).2)

theorem getText_reads {name : String} {options : ReadOptions} {fileCode : ErrorCode}
    {fault : FileError → ErrorCode}
    (called : Registry.standard.call name = counted name 1 1 (getText fileCode fault options)) :
    Reads name options := by
  intro id mode reading machine bytes carries ran
  obtain ⟨files, read, left⟩ := Files.readText_leaves carries reading options
  have asked : onFiles fault (Files.readText id options) machine
      = (.ok (options.cut bytes).1, { machine with files }) := by
    rw [onFiles, read]
    rfl
  have answered : ran = (.ok (textOrNull (options.cut bytes).1), { machine with files }) := by
    show Registry.standard.call name _ machine = _
    have gave : getText fileCode fault options [Value.ofFile id] machine
        = (.ok (textOrNull (options.cut bytes).1), { machine with files }) :=
      Effect.bind_ok asked
    rw [called, counted]
    show settle (getText fileCode fault options [Value.ofFile id]) machine = _
    rw [settle, gave]
  rw [answered]
  exact ⟨rfl, left⟩

theorem fgetstr_reads : Reads "fgetstr" .terminated :=
  getText_reads rfl

theorem fgetline_reads : Reads "fgetline" .strippedLine :=
  getText_reads rfl

theorem fgetfield_reads : Reads "fgetfield" .word :=
  getText_reads rfl

theorem rewind_leaves (carries : machine.files.Carries id mode (Channel.Gathered written)) :
    let ran := Registry.standard.call "rewind" [Value.ofFile id] machine
    (written.length ≤ Content.maxSize → Done ran.1)
      ∧ (Done ran.1 → ran.2.files.Carries id mode (Channel.Leaves written)) := by
  intro ran
  obtain ⟨succeeds, leaves⟩ := Files.rewind_leaves carries
  have settled : ran = settle (onFiles FileError.code (Files.rewind id) >>= fun _ =>
      pure Value.null) machine := by
    show settle (Builtin.rewind [Value.ofFile id]) machine = _
    have file : fileOr .rewindFile (Value.ofFile id) = pure id := rfl
    simp [Builtin.rewind, file]
  obtain ⟨done, left⟩ := settle_done (onFiles FileError.code (Files.rewind id)) machine
  simp only [onFiles_eq, Effect.mapError_eq_ok] at done left
  rw [settled, done, left]
  exact ⟨fun room => ⟨(), succeeds room⟩, fun ⟨_, success⟩ => leaves success⟩

def writeCalls (writer : String) (id : FileId) (groups : List (List Bytes)) :
    List (String × List Value) :=
  groups.map fun texts => (writer, Value.ofFile id :: texts.map Value.ofText)

def readCalls (reader : String) (id : FileId) (count : Nat) : List (String × List Value) :=
  List.replicate count (reader, [Value.ofFile id])

theorem Writes.all {name : String} {shape : Bytes → Bytes} (writes : Writes name shape)
    (writing : mode.writing = true) (carries : machine.files.Carries id mode (Channel.Gathered written))
    (groups : List (List Bytes)) (nonempty : ∀ texts ∈ groups, texts ≠ []) :
    let ran := Registry.callAll (writeCalls name id groups) machine
    ((written ++ groups.flatten.flatMap shape).length ≤ Content.maxSize →
        ∀ answer ∈ ran.1, Done answer)
      ∧ ((∀ answer ∈ ran.1, Done answer) →
        ran.2.files.Carries id mode (Channel.Gathered (written ++ groups.flatten.flatMap shape))) := by
  induction groups generalizing machine written with
  | nil =>
      refine ⟨fun _ answer present => ?_, fun _ => ?_⟩
      · cases present
      · rw [List.flatten_nil, List.flatMap_nil, List.append_nil]
        exact carries
  | cons texts rest ih =>
      obtain ⟨some_text, others⟩ := List.forall_mem_cons.mp nonempty
      obtain ⟨succeeds, reached⟩ := writes id mode writing machine written carries texts some_text
      rw [List.flatten_cons, List.flatMap_append, ← List.append_assoc]
      dsimp only [writeCalls, List.map_cons, Registry.callAll] at *
      constructor
      · intro room
        have begins : (written ++ texts.flatMap shape).length ≤ Content.maxSize := by
          rw [List.length_append] at room
          exact Nat.le_of_add_right_le room
        have first := succeeds begins
        exact List.forall_mem_cons.mpr ⟨first, (ih (reached first) others).1 room⟩
      · intro done
        obtain ⟨first, later⟩ := List.forall_mem_cons.mp done
        exact (ih (reached first) others).2 later

theorem Reads.all {name : String} {options : ReadOptions} (reads : Reads name options)
    (reading : mode.reading = true) (carries : machine.files.Carries id mode (Channel.Leaves bytes))
    (count : Nat) :
    (Registry.callAll (readCalls name id count) machine).1
      = (options.cuts count bytes).map fun read => .ok (textOrNull read) := by
  induction count generalizing machine bytes with
  | zero => rfl
  | succ count ih =>
      obtain ⟨answered, left⟩ := reads id mode reading machine bytes carries
      dsimp only [readCalls, List.replicate_succ, Registry.callAll] at *
      rw [answered, ih left, ReadOptions.cuts, List.map_cons]

/-- Output is written to a file, in groups of texts, and the file is rewound. That is done wherever the
largest file has room for what is written; and where it is done, `texts` are read from the file one by
one, and then null. -/
def ReadsBack (machine : Machine) (id : FileId) (writer : String) (groups : List (List Bytes))
    (written : Bytes) (reader : String) (texts : List Bytes) : Prop :=
  let put := Registry.callAll (writeCalls writer id groups) machine
  let rewound := Registry.standard.call "rewind" [Value.ofFile id] put.2
  (written.length ≤ Content.maxSize → ∀ answer ∈ put.1 ++ [rewound.1], Done answer)
    ∧ ((∀ answer ∈ put.1 ++ [rewound.1], Done answer) →
      (Registry.callAll (readCalls reader id (texts.length + 1)) rewound.2).1
        = texts.map (fun text => .ok (Value.ofText text)) ++ [.ok Value.null])

/-- A file reads back what the reader cuts off the bytes that the writer put. -/
theorem Writes.reads_back {writer reader : String} {shape : Bytes → Bytes} {options : ReadOptions}
    (writes : Writes writer shape) (reads : Reads reader options) (writing : mode.writing = true)
    (reading : mode.reading = true) (carries : machine.files.Carries id mode (Channel.Gathered []))
    (groups : List (List Bytes)) (nonempty : ∀ texts ∈ groups, texts ≠ []) {texts : List Bytes}
    (shaped : groups.flatten.flatMap shape = written)
    (cut : options.cuts (texts.length + 1) written = texts.map some ++ [none]) :
    ReadsBack machine id writer groups written reader texts := by
  obtain ⟨succeeds, reached⟩ := writes.all writing carries groups nonempty
  rw [List.nil_append, shaped] at succeeds reached
  constructor
  · intro room
    have put := succeeds room
    have moved := (rewind_leaves (reached put)).1 room
    exact List.forall_mem_append.mpr ⟨put, List.forall_mem_singleton.mpr moved⟩
  · intro done
    obtain ⟨put, moved⟩ := List.forall_mem_append.mp done
    have left := (rewind_leaves (reached put)).2 (List.forall_mem_singleton.mp moved)
    rw [reads.all reading left, cut, List.map_append, List.map_map]
    rfl

end Builtin

open Builtin

/-- Whatever was called before, a regular file that was just opened for writing from its start and for
reading gives back the texts that are written to it, however the output is cut into calls: texts without
a NUL, lines without a newline, and words between white space. -/
theorem written_texts_are_read_back (host : Host) (maxFiles readChunk : Nat) (adopt : Bool)
    (calls : List FileCall) (opening : FileCall) {id : FileId} {entry : Entry} {descriptor : Descriptor}
    {content : Content} {machine : Machine} :
    let before := FileCall.afterAll calls (Files.new host maxFiles readChunk adopt)
    let opened := opening.after before
    (opening.perform before).1 = .ok (some id) → machine.files = opened →
    opened.table.find? id = some entry → entry.mode.base = .write → entry.mode.update = true →
    opened.host.open? entry.stream.descriptor = some (descriptor, .file content) →
    ∀ groups : List (List Bytes), (∀ texts ∈ groups, texts ≠ []) →
      ((∀ text ∈ groups.flatten, 0 ∉ text) →
        ReadsBack machine id "fputstr" groups (groups.flatten.flatMap fun text => text ++ [0])
          "fgetstr" groups.flatten)
      ∧ (∀ lines : List Bytes, (∀ line ∈ lines, 0x0A ∉ line) →
        groups.flatten.flatten = lines.flatMap (fun line => line ++ [0x0A]) →
        ReadsBack machine id "fputs" groups groups.flatten.flatten "fgetline" lines)
      ∧ ∀ (lead : Bytes) (words : List (Bytes × Bytes)), ReadOptions.Spaced lead words →
        groups.flatten.flatten = ReadOptions.spaced lead words →
        ReadsBack machine id "fputs" groups groups.flatten.flatten "fgetfield"
          (words.map Prod.fst) := by
  intro before opened answered same found truncated updated regular groups nonempty
  have kept := (FileCall.afterAll_counted calls (Files.new_counted host maxFiles readChunk adopt).1).1
  have chunk : 0 < opened.table.readChunk := by
    refine (opening.after_path before).keeps (fun _ _ step => step.chunk) ?_
    exact FileCall.afterAll_keeps (fun _ _ step => step.chunk) calls
      (Files.new_chunk host maxFiles readChunk adopt)
  have carries : machine.files.Carries id entry.mode (Channel.Gathered []) := by
    rw [same]
    exact (FileCall.perform_opened kept opening answered).gathers chunk found truncated regular
  have writing : entry.mode.writing = true := by simp [Mode.writing, updated]
  have reading : entry.mode.reading = true := by simp [Mode.reading, updated]
  refine ⟨fun clear => ?_, fun lines clear whole => ?_, fun lead words apart whole => ?_⟩
  · have inside : ∀ text ∈ groups.flatten, ∀ byte ∈ text,
        ReadOptions.terminated.stopsAt byte = false := by
      intro text listed byte present
      have other : byte ≠ 0 := fun nul => clear text listed (nul ▸ present)
      simpa [ReadOptions.terminated, ReadOptions.stopsAt] using other
    exact fputstr_writes.reads_back fgetstr_reads writing reading carries groups nonempty rfl
      (ReadOptions.cuts_of_stops rfl rfl rfl inside)
  · have inside : ∀ line ∈ lines, ∀ byte ∈ line, ReadOptions.strippedLine.stopsAt byte = false := by
      intro line listed byte present
      have other : byte ≠ 0x0A := fun newline => clear line listed (newline ▸ present)
      simpa [ReadOptions.strippedLine, ReadOptions.stopsAt] using other
    have stops : ReadOptions.strippedLine.stopsAt 0x0A = true := rfl
    have cut := ReadOptions.cuts_of_stops rfl rfl stops inside
    rw [← whole] at cut
    exact fputs_writes.reads_back fgetline_reads writing reading carries groups nonempty
      List.flatMap_id cut
  · have cut := apart.cuts
    rw [← whole] at cut
    exact fputs_writes.reads_back fgetfield_reads writing reading carries groups nonempty
      List.flatMap_id cut

namespace WrittenSample

def opened : Files :=
  (FileCall.openFile "a" "w+").after (FileCall.afterAll [] (Files.new OneFile.host 20 1024 false))

def machine : Machine :=
  { Machine.new {} OneFile.host with files := opened }

def entry : Entry where
  id := ⟨3⟩
  name := "a"
  mode := { base := .write, binary := false, update := true }
  node := some 10
  stream := Stream.new 3 true

def groups : List (List Bytes) :=
  [[[0x78, 0x79], []], [[0x0A]]]

theorem written_sample_is_read_back :
    ReadsBack machine ⟨3⟩ "fputstr" groups [0x78, 0x79, 0x00, 0x00, 0x0A, 0x00] "fgetstr"
        [[0x78, 0x79], [], [0x0A]]
      ∧ ReadsBack machine ⟨3⟩ "fputs" groups [0x78, 0x79, 0x0A] "fgetline" [[0x78, 0x79]]
      ∧ ReadsBack machine ⟨3⟩ "fputs" groups [0x78, 0x79, 0x0A] "fgetfield" [[0x78, 0x79]] := by
  have answered : ((FileCall.openFile "a" "w+").perform
      (FileCall.afterAll [] (Files.new OneFile.host 20 1024 false))).1 = .ok (some ⟨3⟩) := by cbv
  have found : opened.table.find? ⟨3⟩ = some entry := by cbv
  have regular : opened.host.open? entry.stream.descriptor
      = some ({ node := 10, offset := 0, appends := false }, .file Content.empty) := by cbv
  have same : machine.files = opened := rfl
  obtain ⟨texts, lines, words⟩ := written_texts_are_read_back OneFile.host 20 1024 false []
    (.openFile "a" "w+") answered same found rfl rfl regular groups (by decide)
  have apart : ReadOptions.Spaced [] [([0x78, 0x79], [0x0A])] :=
    ⟨by simp, by simp, by simp [ReadOptions.isBlank], by simp [ReadOptions.isBlank], by simp⟩
  exact ⟨texts (by decide), lines [[0x78, 0x79]] (by decide) rfl,
    words [] [([0x78, 0x79], [0x0A])] apart rfl⟩

end WrittenSample

end Calculator
