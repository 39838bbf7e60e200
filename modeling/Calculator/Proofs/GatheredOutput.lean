import Calculator.Proofs.BufferedFiles
import Calculator.Proofs.OpenEntry
import Calculator.Proofs.Openings
import Calculator.Proofs.Records
import Calculator.Proofs.TableSteps

/-!
# Output that is read again

What is written to an empty file, a piece at a time, is in the file or waits behind it in the stream.
A write is refused only past the largest file, and a refused write is answered as one. So where all is
answered, a rewind leaves all that was written to be read.
-/

namespace Calculator

namespace Effect

variable {ε σ α β : Type} {holds : Bytes → σ → Prop}

theorem mapError_eq_ok {δ : Type} {answer : Except ε α} {rename : ε → δ} {result : α} :
    answer.mapError rename = .ok result ↔ answer = .ok result := by
  cases answer <;> simp [Except.mapError]

/-- A state holds the bytes that were put so far. The program puts `bytes` behind them where it
succeeds, and it succeeds where the largest file has room. -/
def Puts (holds : Bytes → σ → Prop) (program : ExceptT ε (StateM σ) α) (bytes : Bytes) : Prop :=
  ∀ before written, holds written before →
    ((written ++ bytes).length ≤ Content.maxSize → ∃ result, (program before).1 = .ok result)
      ∧ ∀ result, (program before).1 = .ok result → holds (written ++ bytes) (program before).2

theorem Puts.pure (result : α) : Puts holds (Pure.pure result : ExceptT ε (StateM σ) α) [] := by
  intro before written held
  rw [List.append_nil]
  exact ⟨fun _ => ⟨result, rfl⟩, fun _ _ => held⟩

theorem Puts.bind {program : ExceptT ε (StateM σ) α} {next : α → ExceptT ε (StateM σ) β}
    {first second : Bytes} (begun : Puts holds program first)
    (continued : ∀ result, Puts holds (next result) second) :
    Puts holds (program >>= next) (first ++ second) := by
  intro before written held
  obtain ⟨succeeds, reached⟩ := begun before written held
  rw [← List.append_assoc]
  rcases ran : program before with ⟨answer, between⟩
  rw [ran] at succeeds reached
  cases answer with
  | ok result =>
      rw [bind_ok ran]
      exact continued result between _ (reached result rfl)
  | error error =>
      rw [bind_error ran]
      refine ⟨fun room => ?_, fun _ same => by cases same⟩
      have begins : (written ++ first).length ≤ Content.maxSize := by
        rw [List.length_append] at room
        exact Nat.le_of_add_right_le room
      obtain ⟨_, same⟩ := succeeds begins
      cases same

theorem Puts.forM {put : α → ExceptT ε (StateM σ) PUnit} {shape : α → Bytes}
    (each : ∀ value, Puts holds (put value) (shape value)) (values : List α) :
    Puts holds (values.forM put) (values.flatMap shape) := by
  induction values with
  | nil => exact Puts.pure _
  | cons value rest ih =>
      rw [List.flatMap_cons]
      exact (each value).bind fun _ => ih

end Effect

/-- All that was written to a file is in it or waits to be written behind it. -/
structure Channel.Gathered (written : Bytes) (channel : Channel) : Prop where
  buffered : channel.stream.buffered = true
  outward : channel.stream.direction ≠ .read
  ahead : channel.stream.ahead = []
  pushback : channel.stream.pushback = []
  held : ∃ node content, channel.host.open? channel.stream.descriptor
      = some ({ node, offset := content.size, appends := false }, .file content)
    ∧ content.size ≤ Content.maxSize ∧ content.toBytes ++ channel.stream.pending = written

def Channel.Leaves (bytes : Bytes) (channel : Channel) : Prop :=
  ∃ node file, channel.Mirrors node file ∧ file.remaining = bytes

namespace Transfer

open Effect (Puts)

variable {channel : Channel} {written bytes : Bytes}

/-- A flush succeeds where all fits into the file, and then all is there. -/
theorem flush_gathered (gathered : channel.Gathered written) :
    (written.length ≤ Content.maxSize → (flush channel).1 = .ok ())
      ∧ ((flush channel).1 = .ok () →
        (flush channel).2.Gathered written ∧ (flush channel).2.stream.pending = []) := by
  obtain ⟨node, content, opened, sized, rfl⟩ := gathered.held
  obtain ⟨failed, ran⟩ := request_eq
    (fun host descriptor => host.write descriptor channel.stream.pending)
    { channel with stream := { channel.stream with pending := [] } }
  have answered := Host.write_ok_iff opened channel.stream.pending
  obtain ⟨stored, reached, stores⟩ := Host.write_open? opened channel.stream.pending
  have start : Descriptor.writeStart { node, offset := content.size, appends := false } content
      = content.size := rfl
  rw [start] at answered stores
  rw [flush_eq, ran]
  constructor
  · intro room
    rw [List.length_append, ← Content.size_eq] at room
    exact answered.mpr (Nat.le_sub_of_add_le' room)
  · intro success
    have fits := answered.mp success
    rw [Descriptor.taken_of_fits fits, Content.size_eq, Bytes.patch_end] at stores
    have length : stored.size = content.size + channel.stream.pending.length := by
      rw [Content.size_eq, stores, List.length_append, ← Content.size_eq]
    refine ⟨⟨gathered.buffered, gathered.outward, gathered.ahead, gathered.pushback, ?_⟩, rfl⟩
    refine ⟨node, stored, ?_, by omega, by rw [stores, List.append_nil]⟩
    have place : Descriptor.reached { node, offset := content.size, appends := false } content
        channel.stream.pending = stored.size := by
      rw [Descriptor.reached, Descriptor.taken_of_fits fits, start, length]
      split
      · rename_i nothing
        rw [nothing]
        rfl
      · rfl
    rw [place] at reached
    exact reached

theorem writeAll_puts (bytes : Bytes) :
    Puts (fun written channel => channel.Gathered written) (writeAll bytes) bytes := by
  intro channel written gathered
  have collected : Channel.Gathered (written ++ bytes)
      { channel with stream := { channel.stream with pending := channel.stream.pending ++ bytes } } := by
    obtain ⟨node, content, opened, sized, whole⟩ := gathered.held
    exact ⟨gathered.buffered, gathered.outward, gathered.ahead, gathered.pushback,
      node, content, opened, sized, by rw [← whole, List.append_assoc]⟩
  rw [writeAll_buffered gathered.buffered]
  dsimp only
  split
  · obtain ⟨succeeds, reached⟩ := flush_gathered collected
    exact ⟨fun room => ⟨(), succeeds room⟩, fun _ success => (reached success).1⟩
  · exact ⟨fun _ => ⟨(), rfl⟩, fun _ _ => collected⟩

theorem prepareWrite_puts :
    Puts (fun written channel => channel.Gathered written) prepareWrite [] := by
  intro channel written gathered
  rw [List.append_nil]
  have turned : prepareWrite channel
      = (.ok (), { channel with stream := { channel.stream with direction := .write } }) := by
    unfold prepareWrite
    rw [Effect.get_bind_run, beq_eq_false_iff_ne.mpr gathered.outward]
    rfl
  rw [turned]
  refine ⟨fun _ => ⟨(), rfl⟩, fun _ _ => ?_⟩
  exact ⟨gathered.buffered, Direction.noConfusion, gathered.ahead, gathered.pushback, gathered.held⟩

theorem write_puts (bytes : Bytes) :
    Puts (fun written channel => channel.Gathered written) (do prepareWrite; writeAll bytes) bytes :=
  prepareWrite_puts.bind fun _ => writeAll_puts bytes

theorem gathered_mirrors (gathered : channel.Gathered written) (nothing : channel.stream.pending = []) :
    ∃ node file, channel.Mirrors node file ∧ file.content = written := by
  obtain ⟨node, content, opened, sized, rfl⟩ := gathered.held
  obtain ⟨listed, stored⟩ := Host.open?_some opened
  have mirrors : channel.stream.Mirrors content.size content.toBytes
      { content := content.toBytes, position := content.size, pushed := []
        eof := channel.stream.eof, direction := channel.stream.direction } := by
    constructor <;> simp [nothing, gathered.ahead, gathered.pushback, sized, ← Content.size_eq]
  rw [nothing, List.append_nil]
  exact ⟨node, _, ⟨content.size, content.toBytes, ⟨content, listed, stored, rfl⟩, mirrors⟩, rfl⟩

/-- A rewind succeeds where all fits into the file, and then all of it is left to be read. -/
theorem rewind_leaves (gathered : channel.Gathered written) :
    (written.length ≤ Content.maxSize → (rewind channel).1 = .ok ())
      ∧ ((rewind channel).1 = .ok () → (rewind channel).2.Leaves written) := by
  obtain ⟨succeeds, reached⟩ := flush_gathered gathered
  rcases ran : flush channel with ⟨answer, flushed⟩
  rw [ran] at succeeds reached
  cases answer with
  | error fault =>
      have refused : rewind channel = (.error fault, flushed) :=
        Effect.bind_error (Effect.bind_error ran)
      rw [refused]
      refine ⟨fun room => ?_, fun same => ?_⟩
      · cases succeeds room
      · cases same
  | ok _ =>
      obtain ⟨also, nothing⟩ := reached rfl
      obtain ⟨node, file, mirrors, rfl⟩ := gathered_mirrors also nothing
      obtain ⟨after, moved, shows, _⟩ := rewind_yields mirrors
      have same : rewind flushed = rewind channel := Effect.bind_congr_run (seek_flushed ran 0)
      rw [← same, moved]
      exact ⟨fun _ => rfl, fun _ => ⟨node, _, shows, rfl⟩⟩

theorem readText_leaves (leaves : channel.Leaves bytes) (options : ReadOptions) {chunk : Nat}
    (positive : 0 < chunk) :
    ∃ after, readText options chunk channel = (.ok (options.cut bytes).1, after)
      ∧ after.Leaves (options.cut bytes).2 := by
  obtain ⟨node, file, mirrors, rfl⟩ := leaves
  obtain ⟨after, ran, shows, _⟩ := readText_yields mirrors options positive
  obtain ⟨read, left⟩ := ReadOptions.readText_cut (file.toward .read) options
  rw [read] at ran
  exact ⟨after, ran, node, _, shows, left⟩

end Transfer

/-- The file of `id` is open in `mode`, its stream is as `holds` says, and texts can be read. -/
structure Files.Carries (files : Files) (id : FileId) (mode : Mode) (holds : Channel → Prop) : Prop where
  chunk : 0 < files.table.readChunk
  bears : files.Bears id mode holds

namespace Files

open Effect (Puts)

variable {files : Files} {id : FileId} {mode : Mode} {first : Channel → Prop} {α : Type}
  {written bytes : Bytes}

theorem Carries.run (carries : files.Carries id mode first) {lookup : FileM Entry}
    (looks : ∀ entry, files.table.find? id = some entry → entry.mode = mode →
      lookup files = (.ok entry, files)) (transfer : Transfer α) :
    ∃ channel, first channel
      ∧ ((lookup >>= fun entry => Files.run entry transfer) files).1
        = (transfer channel).1.mapError FileError.host
      ∧ ∀ last : Channel → Prop, last (transfer channel).2 →
        ((lookup >>= fun entry => Files.run entry transfer) files).2.Carries id mode last := by
  obtain ⟨channel, holds, answered, chunk, reached⟩ := carries.bears.run looks transfer
  refine ⟨channel, holds, answered, fun last kept => ⟨?_, reached last kept⟩⟩
  rw [chunk]
  exact carries.chunk

/-- Bytes that a transfer puts into the stream are put into the file. -/
theorem puts_of_transfer {transfer : Transfer α} {lookup : FileM Entry}
    (looks : ∀ files entry, files.table.find? id = some entry → entry.mode = mode →
      lookup files = (.ok entry, files))
    (puts : Puts (fun written channel => channel.Gathered written) transfer bytes) :
    Puts (fun written files => files.Carries id mode (Channel.Gathered written))
      (lookup >>= fun entry => Files.run entry transfer) bytes := by
  intro files written carries
  obtain ⟨channel, gathered, answered, reached⟩ := carries.run (looks files) transfer
  obtain ⟨succeeds, puts⟩ := puts channel written gathered
  simp only [answered, Effect.mapError_eq_ok]
  exact ⟨succeeds, fun result success => reached _ (puts result success)⟩

theorem write_puts (writing : mode.writing = true) (bytes : Bytes) :
    Puts (fun written files => files.Carries id mode (Channel.Gathered written)) (write id bytes)
      bytes := by
  refine puts_of_transfer ?_ (Transfer.write_puts bytes)
  rintro files entry found rfl
  exact writableEntry_found found writing

theorem writeTerminated_puts (writing : mode.writing = true) (bytes : Bytes) :
    Puts (fun written files => files.Carries id mode (Channel.Gathered written))
      (writeTerminated id bytes) (bytes ++ [0]) :=
  (write_puts writing bytes).bind fun _ => write_puts writing [0]

theorem rewind_leaves (carries : files.Carries id mode (Channel.Gathered written)) :
    (written.length ≤ Content.maxSize → (rewind id files).1 = .ok ())
      ∧ ((rewind id files).1 = .ok () →
        (rewind id files).2.Carries id mode (Channel.Leaves written)) := by
  obtain ⟨channel, gathered, answered, reached⟩ :=
    carries.run (fun _ found _ => entry_found found) Transfer.rewind
  obtain ⟨succeeds, leaves⟩ := Transfer.rewind_leaves gathered
  unfold rewind
  simp only [answered, Effect.mapError_eq_ok]
  exact ⟨succeeds, fun success => reached _ (leaves success)⟩

theorem readText_leaves (carries : files.Carries id mode (Channel.Leaves bytes))
    (reading : mode.reading = true) (options : ReadOptions) :
    ∃ after, readText id options files = (.ok (options.cut bytes).1, after)
      ∧ after.Carries id mode (Channel.Leaves (options.cut bytes).2) := by
  have looks : ∀ entry, files.table.find? id = some entry → entry.mode = mode →
      readableEntry id files = (.ok entry, files) := by
    rintro entry found rfl
    exact readableEntry_found found reading
  obtain ⟨entry, found, same, _⟩ := carries.bears
  obtain ⟨channel, leaves, answered, reached⟩ := carries.run looks
    (Transfer.readText options files.table.readChunk)
  obtain ⟨after, ran, left⟩ := Transfer.readText_leaves leaves options carries.chunk
  rw [ran] at answered reached
  have looked : readText id options files = (readableEntry id >>= fun entry =>
      Files.run entry (Transfer.readText options files.table.readChunk)) files := by
    unfold readText
    rw [Effect.bind_ok (looks entry found same), Effect.bind_ok (looks entry found same)]
    rfl
  rw [looked]
  exact ⟨_, Effect.run_of_answer answered, reached _ left⟩

end Files

/-! ## The opened file -/

theorem Files.Step.chunk {before after : Files} (step : Files.Step before after)
    (positive : 0 < before.table.readChunk) : 0 < after.table.readChunk := by
  cases step with
  | ran ran =>
      obtain ⟨_, _⟩ := ran
      exact positive
  | _ => exact positive

theorem Files.new_chunk (host : Host) (maxFiles readChunk : Nat) (adopt : Bool) :
    0 < (Files.new host maxFiles readChunk adopt).table.readChunk :=
  (Files.new_path host maxFiles readChunk adopt).keeps (fun _ _ step => step.chunk)
    (Nat.lt_of_lt_of_le Nat.zero_lt_one (Nat.le_max_right readChunk 1))

/-- A regular file that was just opened for writing from its start has nothing in it. -/
theorem Files.JustOpened.gathers {files : Files} {id : FileId} {entry : Entry} {descriptor : Descriptor}
    {content : Content} (opened : files.JustOpened id) (chunk : 0 < files.table.readChunk)
    (found : files.table.find? id = some entry) (truncated : entry.mode.base = .write)
    (regular : files.host.open? entry.stream.descriptor = some (descriptor, .file content)) :
    files.Carries id entry.mode (Channel.Gathered []) where
  chunk := chunk
  bears := by
    obtain ⟨used, name, mode, listed, node, fresh, emptied⟩ := opened.opened
    rw [found] at listed
    cases listed
    obtain ⟨held, stored⟩ := Host.open?_some regular
    change files.host.descriptors[used]? = _ at held
    rw [fresh] at held
    cases held
    have written : mode.base = .write := truncated
    obtain rfl : content = Content.empty := emptied (by simp [Mode.request, written]) content stored
    refine ⟨_, found, rfl, rfl, Direction.noConfusion, rfl, rfl, node, Content.empty, ?_, ?_, rfl⟩
    · have kept : mode.request.append = false := by simp [Mode.request, written]
      rw [kept] at regular
      exact regular
    · exact Nat.zero_le _

end Calculator
