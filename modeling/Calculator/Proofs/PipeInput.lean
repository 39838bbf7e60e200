import Calculator.Proofs.RegularFile
import Calculator.Proofs.TableBuffers

/-!
# What a pipe still offers

A stream on a pipe offers what was pushed back, what was fetched, what is queued, and its own output,
in that order. What a read answers, and what is offered after it, depends on nothing but these bytes:
not on how many of them were fetched, and not on the marks of the stream.
-/

namespace Calculator

/-- The stream stands on a pipe. It has `held` already, and `rest` will be fetched behind that. -/
structure Channel.Offers (channel : Channel) (held rest : Bytes) : Prop where
  tidy : channel.stream.Tidy
  held : channel.stream.pushback ++ channel.stream.ahead = held
  piped : ∃ descriptor queued,
    channel.host.open? channel.stream.descriptor = some (descriptor, .pipe queued)
      ∧ queued ++ channel.stream.pending = rest

def Channel.Supplies (channel : Channel) (input : Bytes) : Prop :=
  channel.stream.direction = .read ∧ ∃ held rest, channel.Offers held rest ∧ held ++ rest = input

namespace Host

variable {host : Host} {id : DescriptorId} {descriptor : Descriptor} {queued : Bytes}

theorem write_pipe (opened : host.open? id = some (descriptor, .pipe queued)) (bytes : Bytes) :
    ∃ after, host.write id bytes = (.ok (), after)
      ∧ after.open? id = some (descriptor, .pipe (queued ++ bytes)) := by
  by_cases nothing : bytes = []
  · subst nothing
    exact ⟨host, rfl, by rwa [List.append_nil]⟩
  · refine ⟨host.setNode descriptor.node (.pipe (queued ++ bytes)), ?_, setNode_open? opened _⟩
    rw [write, if_neg (by simpa using nothing), opened]

theorem read_pipe (opened : host.open? id = some (descriptor, .pipe queued)) (count : Nat) :
    ∃ after, host.read id count = (.ok (queued.take count), after)
      ∧ after.open? id = some (descriptor, .pipe (queued.drop count)) := by
  refine ⟨host.setNode descriptor.node (.pipe (queued.drop count)), ?_, setNode_open? opened _⟩
  rw [read, opened]

end Host

namespace Transfer

variable {channel : Channel} {held rest input : Bytes} {α β : Type}

theorem flush_offers (offers : channel.Offers held rest) :
    ∃ after, flush channel = (.ok (), after) ∧ after.Offers held rest
      ∧ after.stream = { channel.stream with pending := [] } := by
  obtain ⟨descriptor, queued, opened, whole⟩ := offers.piped
  obtain ⟨host, wrote, reached⟩ := Host.write_pipe opened channel.stream.pending
  refine ⟨{ stream := { channel.stream with pending := [] }, host }, ?_, ?_, rfl⟩
  · rw [flush_eq, request, wrote]
  · exact ⟨offers.tidy.flushed, offers.held, descriptor, _, reached, by rw [List.append_nil, whole]⟩

theorem prepareRead_offers (offers : channel.Offers held rest) :
    ∃ after, prepareRead channel = (.ok (), after) ∧ after.Supplies (held ++ rest) := by
  have turns {channel : Channel} (offers : channel.Offers held rest)
      (written : channel.stream.pending = []) :
      Channel.Supplies { channel with stream := { channel.stream with direction := .read } }
        (held ++ rest) :=
    ⟨rfl, held, rest, ⟨offers.tidy.turned (absurd written) (absurd rfl), offers.held, offers.piped⟩, rfl⟩
  unfold prepareRead
  rw [Effect.get_bind_run]
  by_cases outward : channel.stream.direction = .write
  · obtain ⟨flushed, ran, still, stream⟩ := flush_offers offers
    rw [outward]
    exact ⟨_, Effect.bind_ok ran, turns still (by rw [stream])⟩
  · rw [beq_eq_false_iff_ne.mpr outward]
    exact ⟨_, rfl, turns offers (offers.tidy.nothing_pending outward)⟩

/-- Of the bytes `input` the transfer makes `result`, and leaves `left`. -/
def Takes (input : Bytes) (transfer : Transfer α) (result : α) (left : Bytes) : Prop :=
  ∀ channel : Channel, channel.Supplies input →
    ∃ after, transfer channel = (.ok result, after) ∧ after.Supplies left

def Determined (transfer : Transfer α) : Prop :=
  ∀ input, ∃ result left, Takes input transfer result left

theorem Takes.pure (input : Bytes) (result : α) : Takes input (Pure.pure result) result input :=
  fun channel supplies => ⟨channel, rfl, supplies⟩

theorem Takes.bind {transfer : Transfer α} {next : α → Transfer β} {first : α} {second : β}
    {between left : Bytes} (took : Takes input transfer first between)
    (continued : Takes between (next first) second left) :
    Takes input (transfer >>= next) second left := by
  intro channel supplies
  obtain ⟨middle, ran, reached⟩ := took channel supplies
  obtain ⟨after, finished, final⟩ := continued middle reached
  exact ⟨after, (Effect.bind_ok ran).trans finished, final⟩

theorem Determined.pure (result : α) : Determined (Pure.pure result) :=
  fun input => ⟨result, input, Takes.pure input result⟩

theorem Determined.bind {transfer : Transfer α} {next : α → Transfer β} (first : Determined transfer)
    (continued : ∀ result, Determined (next result)) : Determined (transfer >>= next) := by
  intro input
  obtain ⟨result, between, took⟩ := first input
  obtain ⟨final, left, finished⟩ := continued result between
  exact ⟨final, left, took.bind finished⟩

theorem readByte_takes (input : Bytes) : Takes input readByte input.head? input.tail := by
  rintro channel ⟨inward, held, rest, ⟨tidy, rfl, descriptor, queued, opened, rfl⟩, rfl⟩
  obtain ⟨stream, host⟩ := channel
  have nothing := tidy.nothing_pending (by rw [inward]; decide)
  unfold readByte
  rw [Effect.get_bind_run]
  dsimp only at *
  rw [nothing, List.append_nil]
  have piped {host : Host} {queued : Bytes}
      (opened : host.open? stream.descriptor = some (descriptor, .pipe queued)) :
      ∃ descriptor kept, host.open? stream.descriptor = some (descriptor, .pipe kept)
        ∧ kept ++ stream.pending = queued :=
    ⟨descriptor, queued, opened, by rw [nothing, List.append_nil]⟩
  cases pushed : stream.pushback with
  | cons byte pushback =>
      refine ⟨_, rfl, inward, pushback ++ stream.ahead, queued, ⟨?_, rfl, piped opened⟩, by simp⟩
      exact tidy.filled inward pushback tidy.fetched
  | nil =>
      cases fetched : stream.ahead with
      | cons byte ahead =>
          have short : ahead.length < Stream.bufferSize := by
            have length := tidy.fetched
            rw [fetched, List.length_cons] at length
            omega
          refine ⟨_, rfl, inward, ahead, queued, ⟨?_, ?_, piped opened⟩, rfl⟩
          · exact tidy.filled inward stream.pushback short
          · dsimp only
            rw [pushed, List.nil_append]
      | nil =>
          obtain ⟨after, read, reached⟩ := Host.read_pipe opened Stream.bufferSize
          have asked : request (fun host descriptor => host.read descriptor Stream.bufferSize)
              { stream, host } = (.ok (queued.take Stream.bufferSize), { stream, host := after }) := by
            rw [request, read]
          dsimp only
          rw [Effect.bind_ok asked]
          have parts := List.take_append_drop Stream.bufferSize queued
          cases first : queued.take Stream.bufferSize with
          | nil =>
              have dry : queued = [] :=
                (List.take_eq_nil_iff.mp first).resolve_left (Nat.ne_of_gt Stream.bufferSize_pos)
              subst dry
              refine ⟨_, rfl, inward, [], [], ⟨tidy.marked true _, ?_, piped reached⟩, rfl⟩
              dsimp only
              rw [pushed, fetched, List.nil_append]
          | cons byte more =>
              have short : more.length < Stream.bufferSize := by
                have length := List.length_take_le Stream.bufferSize queued
                rw [first, List.length_cons] at length
                omega
              rw [first] at parts
              have head : queued.head? = some byte := (congrArg List.head? parts).symm
              have rest : more ++ queued.drop Stream.bufferSize = queued.tail :=
                congrArg List.tail parts
              rw [List.append_nil, List.nil_append, head]
              refine ⟨_, rfl, inward, more, queued.drop Stream.bufferSize,
                ⟨tidy.filled inward stream.pushback short, ?_, piped reached⟩, rest⟩
              dsimp only
              rw [pushed, List.nil_append]

theorem readBytes_takes (count : Nat) (input : Bytes) :
    Takes input (readBytes count) (input.take count) (input.drop count) := by
  induction count generalizing input with
  | zero => exact Takes.pure input []
  | succ count ih =>
      have byte := readByte_takes input
      cases input with
      | nil => exact byte.bind (Takes.pure [] [])
      | cons first rest => exact byte.bind ((ih rest).bind (Takes.pure _ _))

theorem readByte_determined : Determined readByte :=
  fun input => ⟨_, _, readByte_takes input⟩

theorem available_determined : Determined available := by
  intro input
  refine ⟨input.length, input, ?_⟩
  rintro channel ⟨inward, held, rest, offers, rfl⟩
  have nothing := offers.tidy.nothing_pending (by rw [inward]; decide)
  obtain ⟨descriptor, queued, opened, whole⟩ := offers.piped
  refine ⟨channel, ?_, inward, held, rest, offers, rfl⟩
  rw [nothing, List.append_nil] at whole
  have left : channel.host.remaining channel.stream.descriptor = queued.length := by
    rw [Host.remaining, opened]
  unfold available
  rw [left, Stream.aheadCount, whole, ← offers.held, List.length_append, List.length_append,
    Nat.add_comm channel.stream.ahead.length]

theorem unread_determined (byte : UInt8) : Determined (unread byte) := by
  intro input
  refine ⟨(), byte :: input, ?_⟩
  rintro channel ⟨inward, held, rest, offers, rfl⟩
  refine ⟨_, rfl, inward, byte :: held, rest, ⟨?_, ?_, offers.piped⟩, rfl⟩
  · exact (offers.tidy.filled inward (byte :: channel.stream.pushback) offers.tidy.fetched).marked
      false channel.stream.failed
  · rw [← offers.held]
    rfl

theorem skipBlanks_determined (fuel : Nat) : Determined (skipBlanks fuel) := by
  induction fuel with
  | zero => exact Determined.pure _
  | succ fuel ih =>
      refine readByte_determined.bind fun byte => ?_
      split
      · exact Determined.pure _
      · split
        · exact ih
        · exact unread_determined _

theorem readPiece_determined (options : ReadOptions) (room : Nat) :
    Determined (readPiece options room) := by
  induction room with
  | zero => exact Determined.pure _
  | succ room ih =>
      refine readByte_determined.bind fun byte => ?_
      split
      · exact Determined.pure _
      · split
        · exact Determined.pure _
        · exact ih.bind fun _ => Determined.pure _

theorem readPieces_determined (options : ReadOptions) (chunk fuel : Nat) :
    Determined (readPieces options chunk fuel) := by
  induction fuel with
  | zero => exact Determined.pure _
  | succ fuel ih =>
      refine (readPiece_determined options chunk).bind fun gathered => ?_
      obtain ⟨piece, ending⟩ := gathered
      cases ending with
      | full => exact ih.bind fun _ => Determined.pure _
      | stopped byte => exact Determined.pure _
      | atEof => exact Determined.pure _

/-- Of what a stream offers, in whatever direction it goes, the transfer makes `result` and leaves
`left`. -/
def Draws (input : Bytes) (transfer : Transfer α) (result : α) (left : Bytes) : Prop :=
  ∀ (channel : Channel) (held rest : Bytes), channel.Offers held rest → held ++ rest = input →
    ∃ after, transfer channel = (.ok result, after) ∧ after.Supplies left

theorem prepareRead_draws {next : Transfer α} {result : α} {left : Bytes}
    (took : Takes input next result left) : Draws input (prepareRead >>= fun _ => next) result left := by
  rintro channel held rest offers rfl
  obtain ⟨turned, ran, supplies⟩ := prepareRead_offers offers
  obtain ⟨after, finished, final⟩ := took turned supplies
  exact ⟨after, (Effect.bind_ok ran).trans finished, final⟩

theorem gather_determined (options : ReadOptions) (chunk : Nat) :
    Determined (gather options chunk) := by
  refine available_determined.bind fun left =>
    (readPieces_determined options chunk _).bind fun gathered => ?_
  obtain ⟨text, stop⟩ := gathered
  cases stop with
  | none => exact Determined.pure _
  | some byte => exact Determined.pure _

theorem readText_draws (options : ReadOptions) (chunk : Nat) (input : Bytes) :
    ∃ result left, Draws input (readText options chunk) result left := by
  suffices determined : Determined (do
      if options.stopBlank then skipBlanks ((← available) + 1)
      gather options chunk) by
    obtain ⟨result, left, took⟩ := determined input
    exact ⟨result, left, prepareRead_draws took⟩
  dsimp only
  split
  · exact available_determined.bind fun left => (skipBlanks_determined _).bind fun _ =>
      gather_determined options chunk
  · exact gather_determined options chunk

end Transfer

/-- A request to read. -/
inductive Reading where
  | char
  | text (options : ReadOptions)
  | bytes (count : Nat)
  deriving DecidableEq, Repr

namespace Reading

def request (id : FileId) : Reading → FileRequest
  | char => .readChar id
  | text options => .readText id options
  | bytes count => .readBytes id count

def answers (id : FileId) (readings : List Reading) (files : Files) :
    List (Except FileError FileAnswer) :=
  (FileRequest.performAll (readings.map (request id)) files).1

end Reading

namespace Files

open Transfer (Draws)

variable {files other : Files} {id : FileId} {entry : Entry} {held rest input left : Bytes}
  {chunk : Nat} {α : Type}

/-- The file of `id` can be read, and is a pipe of which `held` is there and `rest` will be fetched.
Texts are read in pieces of `chunk` bytes. -/
structure Offers (files : Files) (id : FileId) (chunk : Nat) (held rest : Bytes) : Prop where
  chunk : files.table.readChunk = chunk
  opened : ∃ entry, files.table.find? id = some entry ∧ entry.mode.reading = true
    ∧ Channel.Offers { stream := entry.stream, host := files.host } held rest

def Inputs (files : Files) (id : FileId) (chunk : Nat) (input : Bytes) : Prop :=
  ∃ held rest, files.Offers id chunk held rest ∧ held ++ rest = input

theorem Offers.run {transfer : Transfer α} {channel : Channel} {answer : Except Fault α}
    {fresh remaining : Bytes} (offers : files.Offers id chunk held rest)
    (found : files.table.find? id = some entry)
    (ran : transfer { stream := entry.stream, host := files.host } = (answer, channel))
    (left : channel.Offers fresh remaining) :
    ∃ after, run entry transfer files = (answer.mapError FileError.host, after)
      ∧ after.Offers id chunk fresh remaining := by
  obtain ⟨other, present, reading, _⟩ := offers.opened
  rw [found] at present
  cases present
  refine ⟨{ table := files.table.setStream id channel.stream, host := channel.host }, ?_, offers.chunk,
    { entry with stream := channel.stream }, FileTable.find?_setStream_self found _, reading, left⟩
  rw [Files.run, ran, FileTable.id_of_find? found]

/-- The program makes `result` of the input of `id` and leaves `left`. -/
def Reads (id : FileId) (chunk : Nat) (input : Bytes) (program : FileM α) (result : α) (left : Bytes) :
    Prop :=
  ∀ files, Inputs files id chunk input →
    ∃ after, program files = (.ok result, after) ∧ after.Inputs id chunk left

theorem lookup_reads {next : Entry → FileM α} {transfer : Transfer α} {result : α}
    (draws : Draws input transfer result left)
    (runs : ∀ entry files, files.table.readChunk = chunk → next entry files = run entry transfer files) :
    Reads id chunk input (readableEntry id >>= next) result left := by
  rintro files ⟨held, rest, offers, whole⟩
  obtain ⟨entry, found, reading, offered⟩ := offers.opened
  obtain ⟨channel, ran, inward, held, rest, supplies, remains⟩ := draws _ held rest offered whole
  obtain ⟨after, reached, leaves⟩ := offers.run found ran supplies
  refine ⟨after, ?_, held, rest, leaves, remains⟩
  rw [Effect.bind_ok (readableEntry_found found reading), runs entry files offers.chunk]
  exact reached

theorem map_reads {β : Type} {program : FileM α} {result : α}
    (reads : Reads id chunk input program result left) (answer : α → β) :
    Reads id chunk input (do return answer (← program)) (answer result) left := by
  intro files inputs
  obtain ⟨after, ran, remains⟩ := reads files inputs
  exact ⟨after, Effect.bind_ok ran, remains⟩

theorem readBytes_reads (id : FileId) (chunk count : Nat) (input : Bytes) :
    Reads id chunk input (FileRequest.readBytes id count).perform (.bytes (input.take count))
      (input.drop count) := by
  have draws := Transfer.prepareRead_draws (Transfer.readBytes_takes count input)
  exact map_reads (lookup_reads draws fun _ _ _ => rfl) FileAnswer.bytes

theorem perform_reads (id : FileId) (chunk : Nat) (reading : Reading) (input : Bytes) :
    ∃ answer left, Reads id chunk input (reading.request id).perform answer left := by
  cases reading with
  | char =>
      have draws := Transfer.prepareRead_draws (Transfer.readByte_takes input)
      exact ⟨_, _, map_reads (lookup_reads draws fun _ _ _ => rfl) FileAnswer.byte⟩
  | text options =>
      obtain ⟨result, left, draws⟩ := Transfer.readText_draws options chunk input
      have reads : Reads id chunk input (Files.readText id options) result left := by
        refine lookup_reads draws fun entry files sized => ?_
        rw [Effect.get_bind_run, sized]
      exact ⟨_, left, map_reads reads FileAnswer.text⟩
  | bytes count => exact ⟨_, _, readBytes_reads id chunk count input⟩

theorem answers_eq (first : files.Inputs id chunk input) (second : other.Inputs id chunk input)
    (readings : List Reading) :
    Reading.answers id readings files = Reading.answers id readings other := by
  induction readings generalizing files other input with
  | nil => rfl
  | cons reading later ih =>
      obtain ⟨answer, left, reads⟩ := perform_reads id chunk reading input
      obtain ⟨one, ranFirst, leftFirst⟩ := reads files first
      obtain ⟨two, ranSecond, leftSecond⟩ := reads other second
      have same := ih leftFirst leftSecond
      unfold Reading.answers at same ⊢
      simp only [List.map_cons, FileRequest.performAll, ranFirst, ranSecond, same]

theorem answers_eq_iff {between : Bytes} (first : files.Inputs id chunk input)
    (second : other.Inputs id chunk between) :
    (∀ readings, Reading.answers id readings files = Reading.answers id readings other)
      ↔ input = between := by
  constructor
  · intro same
    have all := same [.bytes (input.length + between.length)]
    obtain ⟨_, ranFirst, _⟩ := readBytes_reads id chunk (input.length + between.length) input files first
    obtain ⟨_, ranSecond, _⟩ :=
      readBytes_reads id chunk (input.length + between.length) between other second
    simp only [Reading.answers, List.map_cons, List.map_nil, Reading.request, FileRequest.performAll,
      ranFirst, ranSecond, List.cons.injEq, Except.ok.injEq, FileAnswer.bytes.injEq, and_true] at all
    rwa [List.take_of_length_le (Nat.le_add_right _ _),
      List.take_of_length_le (Nat.le_add_left _ _)] at all
  · rintro rfl readings
    exact answers_eq first second readings

end Files

end Calculator
