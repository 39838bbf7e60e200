import Calculator.Proofs.GatheredOutput
import Calculator.Proofs.ReadingPace
import Calculator.Proofs.TableBuffers

/-!
# Texts at any pace

What a reader of texts answers, and what is left behind it, depends on nothing but the bytes that are
still to be delivered: those that were pushed back, those that were fetched, and the rest of the file or
pipe. It does not matter how the bytes lie in the buffers, in which pieces the host answers, or in which
chunks a text is gathered. Pending output is written first.
-/

namespace Calculator

/-- What a stream still delivers, and whether its end was noted. -/
structure Input where
  bytes : Bytes
  eof : Bool

/-- The bytes that a channel still delivers: pushed back, fetched, or not yet fetched. -/
def Channel.Delivers (channel : Channel) (bytes : Bytes) : Prop :=
  ∃ rest, channel.host.rest? channel.stream.descriptor = some rest
    ∧ channel.stream.pushback ++ (channel.stream.ahead ++ rest) = bytes

def Channel.Supports (channel : Channel) (input : Input) : Prop :=
  channel.Delivers input.bytes ∧ channel.stream.eof = input.eof

namespace ReadOptions

/-- The input from where a text begins. The byte that ends the white space is pushed back, which takes
the note of the end away. -/
def begin (options : ReadOptions) (input : Input) : Input :=
  if options.stopBlank then
    ⟨input.bytes.dropWhile isBlank, (input.bytes.dropWhile isBlank).isEmpty⟩
  else input

theorem begin_bytes (options : ReadOptions) (input : Input) :
    (options.begin input).bytes = options.opening input.bytes := by
  unfold begin opening
  split <;> rfl

/-- The bytes up to a stop, the stop, and the input behind it. Without a stop the end is noted. -/
def divide (options : ReadOptions) (input : Input) : (Bytes × Option UInt8) × Input :=
  let text := PlainFile.text options input.bytes
  match input.bytes.drop text.length with
  | [] => ((text, none), ⟨[], true⟩)
  | stop :: behind => ((text, some stop), ⟨behind, input.eof⟩)

variable {options : ReadOptions} {byte : UInt8}

theorem divide_text (input : Input) :
    (options.divide input).1.1 = PlainFile.text options input.bytes := by
  rw [divide]
  split <;> rfl

theorem divide_stop (stops : options.stopsAt byte = true) (rest : Bytes) (eof : Bool) :
    options.divide ⟨byte :: rest, eof⟩ = (([], some byte), ⟨rest, eof⟩) := by
  simp [divide, PlainFile.text_cons_of_stop stops]

theorem divide_inside (inside : options.stopsAt byte = false) (rest : Bytes) (eof : Bool) :
    options.divide ⟨byte :: rest, eof⟩
      = ((byte :: (options.divide ⟨rest, eof⟩).1.1, (options.divide ⟨rest, eof⟩).1.2),
        (options.divide ⟨rest, eof⟩).2) := by
  simp only [divide, PlainFile.text_cons_of_inside inside, List.length_cons, List.drop_succ_cons]
  split <;> rfl

/-- What is inside a text may be taken off it first. -/
theorem divide_drop {bytes : Bytes} {eof : Bool} {count : Nat}
    (inside : count ≤ (options.divide ⟨bytes, eof⟩).1.1.length) :
    options.divide ⟨bytes, eof⟩
      = ((bytes.take count ++ (options.divide ⟨bytes.drop count, eof⟩).1.1,
          (options.divide ⟨bytes.drop count, eof⟩).1.2),
        (options.divide ⟨bytes.drop count, eof⟩).2) := by
  induction bytes generalizing count with
  | nil =>
      cases Nat.le_zero.mp inside
      rfl
  | cons byte rest ih =>
      cases count with
      | zero => rfl
      | succ count =>
          by_cases stops : options.stopsAt byte = true
          · rw [divide_stop stops] at inside
            exact absurd inside (Nat.not_succ_le_zero count)
          · have within : options.stopsAt byte = false := by simpa using stops
            rw [divide_inside within] at inside ⊢
            rw [ih (Nat.le_of_succ_le_succ inside)]
            rfl

theorem divide_unstopped {input : Input} (none : ∀ byte ∈ input.bytes, options.stopsAt byte = false) :
    (options.divide input).2 = ⟨[], true⟩ := by
  have all : PlainFile.text options input.bytes = input.bytes := by
    rw [PlainFile.text, List.takeWhile_eq_self_iff]
    intro byte present
    rw [none byte present]
    rfl
  rw [divide, all, List.drop_length]

/-- The text that is cut off is what stands before the stop, with the stop where it is not stripped. -/
theorem cutOff_divide (options : ReadOptions) (input : Input) :
    options.cutOff input.bytes
      = (match (options.divide input).1 with
          | (text, none) => if text.isEmpty then none else some text
          | (text, some stop) => some (if options.strip then text else text ++ [stop]),
        (options.divide input).2.bytes) := by
  simp only [cutOff, divide]
  cases input.bytes.drop (PlainFile.text options input.bytes).length <;> rfl

end ReadOptions

def PieceEnd.ofStop : Option UInt8 → PieceEnd
  | none => .atEof
  | some byte => .stopped byte

namespace Transfer

variable {α β : Type} {pace : Pace} {options : ReadOptions} {input between left : Input}

/-- Of some input the transfer makes a result, and leaves the rest of the input. -/
def Consumes (transfer : Transfer α) (input : Input) (result : α) (left : Input) : Prop :=
  ∀ channel : Channel, channel.Supports input →
    ∃ after, transfer channel = (.ok result, after) ∧ after.Supports left

theorem Consumes.pure (result : α) (input : Input) : Consumes (Pure.pure result) input result input :=
  fun channel supports => ⟨channel, rfl, supports⟩

theorem Consumes.bind {transfer : Transfer α} {next : α → Transfer β} {first : α} {second : β}
    (consumed : Consumes transfer input first between)
    (continued : Consumes (next first) between second left) :
    Consumes (transfer >>= next) input second left := by
  intro channel supports
  obtain ⟨middle, ran, reached⟩ := consumed channel supports
  obtain ⟨after, finished, final⟩ := continued middle reached
  exact ⟨after, (Effect.bind_ok ran).trans finished, final⟩

/-- A request at a pace fetches a piece of what is left. -/
theorem fetch_run (pace : Pace) {channel : Channel} {rest : Bytes}
    (left : channel.host.rest? channel.stream.descriptor = some rest) :
    ∃ bytes host behind,
      request (fun host descriptor => host.readAt pace descriptor Stream.bufferSize) channel
        = (.ok bytes, { channel with host })
      ∧ (bytes = [] → rest = []) ∧ host.rest? channel.stream.descriptor = some behind
      ∧ bytes ++ behind = rest := by
  obtain ⟨bytes, host, behind, read, dry, follows, whole⟩ := Host.read_piece left
    (pace.some channel.host channel.stream.descriptor Stream.bufferSize_pos)
  refine ⟨bytes, host, behind, ?_, dry, follows, whole⟩
  rw [request, Host.readAt, read]

theorem readByteAt_end (pace : Pace) (eof : Bool) :
    Consumes (readByteAt pace) ⟨[], eof⟩ none ⟨[], true⟩ := by
  rintro channel ⟨⟨rest, left, nothing⟩, _⟩
  obtain ⟨pushed, behind⟩ := List.append_eq_nil_iff.mp nothing
  obtain ⟨fetched, rfl⟩ := List.append_eq_nil_iff.mp behind
  obtain ⟨bytes, host, final, asked, _, follows, whole⟩ := fetch_run pace left
  obtain ⟨rfl, rfl⟩ := List.append_eq_nil_iff.mp whole
  unfold readByteAt
  rw [Effect.get_bind_run]
  simp only [pushed, fetched]
  rw [Effect.bind_ok asked]
  refine ⟨_, rfl, ⟨[], follows, ?_⟩, rfl⟩
  exact nothing

theorem readByteAt_cons (pace : Pace) (byte : UInt8) (bytes : Bytes) (eof : Bool) :
    Consumes (readByteAt pace) ⟨byte :: bytes, eof⟩ (some byte) ⟨bytes, eof⟩ := by
  rintro channel ⟨⟨rest, left, whole⟩, noted⟩
  unfold readByteAt
  rw [Effect.get_bind_run]
  dsimp only at whole ⊢
  cases pushed : channel.stream.pushback with
  | cons first pushback =>
      rw [pushed] at whole
      cases whole
      exact ⟨_, rfl, ⟨rest, left, rfl⟩, noted⟩
  | nil =>
      cases fetched : channel.stream.ahead with
      | cons first ahead =>
          rw [pushed, fetched] at whole
          cases whole
          refine ⟨_, rfl, ⟨rest, left, ?_⟩, noted⟩
          exact congrArg (· ++ (ahead ++ rest)) pushed
      | nil =>
          rw [pushed, fetched] at whole
          obtain ⟨piece, host, behind, asked, dry, follows, joined⟩ := fetch_run pace left
          dsimp only
          rw [Effect.bind_ok asked]
          cases piece with
          | nil =>
              rw [dry rfl] at whole
              cases whole
          | cons first more =>
              rw [← joined] at whole
              cases whole
              refine ⟨_, rfl, ⟨behind, follows, ?_⟩, noted⟩
              exact congrArg (· ++ (more ++ behind)) pushed

theorem unread_consumes (byte : UInt8) (bytes : Bytes) (eof : Bool) :
    Consumes (unread byte) ⟨bytes, eof⟩ () ⟨byte :: bytes, false⟩ := by
  rintro ⟨stream, host⟩ ⟨⟨rest, left, whole⟩, _⟩
  refine ⟨_, rfl, ⟨rest, left, ?_⟩, rfl⟩
  exact congrArg (List.cons byte) whole

theorem available_consumes (input : Input) :
    Consumes available input input.bytes.length input := by
  rintro ⟨stream, host⟩ ⟨⟨rest, left, whole⟩, noted⟩
  refine ⟨_, ?_, ⟨rest, left, whole⟩, noted⟩
  have length := congrArg List.length whole
  rw [List.length_append, List.length_append] at length
  rw [available, Host.remaining_of_rest left, Stream.aheadCount, ← length, ← Nat.add_assoc,
    Nat.add_comm stream.ahead.length]

/-- White space is skipped up to the first byte that is none; that byte is pushed back. -/
theorem skipBlanksAt_consumes (pace : Pace) (bytes : Bytes) (eof : Bool) {fuel : Nat}
    (enough : bytes.length < fuel) :
    Consumes (skipBlanksAt pace fuel) ⟨bytes, eof⟩ ()
      ⟨bytes.dropWhile ReadOptions.isBlank, (bytes.dropWhile ReadOptions.isBlank).isEmpty⟩ := by
  induction bytes generalizing fuel with
  | nil =>
      obtain ⟨fuel, rfl⟩ := Nat.exists_eq_succ_of_ne_zero (Nat.ne_of_gt enough)
      exact (readByteAt_end pace eof).bind (Consumes.pure _ _)
  | cons byte rest ih =>
      obtain ⟨fuel, rfl⟩ := Nat.exists_eq_succ_of_ne_zero (Nat.ne_of_gt (Nat.zero_lt_of_lt enough))
      refine (readByteAt_cons pace byte rest eof).bind ?_
      dsimp only
      by_cases blank : ReadOptions.isBlank byte = true
      · rw [if_pos blank, List.dropWhile_cons_of_pos blank]
        exact ih (Nat.lt_of_succ_lt_succ enough)
      · rw [if_neg blank, List.dropWhile_cons_of_neg blank]
        exact unread_consumes byte rest eof

section Piece

variable (pace) (options) (eof : Bool)

theorem readPieceAt_full {bytes : Bytes} {room : Nat}
    (inside : room ≤ (options.divide ⟨bytes, eof⟩).1.1.length) :
    Consumes (readPieceAt pace options room) ⟨bytes, eof⟩ (bytes.take room, .full)
      ⟨bytes.drop room, eof⟩ := by
  induction bytes generalizing room with
  | nil =>
      cases Nat.le_zero.mp inside
      exact Consumes.pure _ _
  | cons byte rest ih =>
      cases room with
      | zero => exact Consumes.pure _ _
      | succ room =>
          by_cases stops : options.stopsAt byte = true
          · rw [ReadOptions.divide_stop stops] at inside
            exact absurd inside (Nat.not_succ_le_zero room)
          · rw [ReadOptions.divide_inside (by simpa using stops)] at inside
            refine (readByteAt_cons pace byte rest eof).bind ?_
            dsimp only
            rw [if_neg stops]
            exact (ih (Nat.le_of_succ_le_succ inside)).bind (Consumes.pure _ _)

/-- A piece with more room ends where the text ends. -/
theorem readPieceAt_ends {bytes : Bytes} {room : Nat}
    (more : (options.divide ⟨bytes, eof⟩).1.1.length < room) :
    Consumes (readPieceAt pace options room) ⟨bytes, eof⟩
      ((options.divide ⟨bytes, eof⟩).1.1, .ofStop (options.divide ⟨bytes, eof⟩).1.2)
      (options.divide ⟨bytes, eof⟩).2 := by
  induction bytes generalizing room with
  | nil =>
      obtain ⟨room, rfl⟩ := Nat.exists_eq_succ_of_ne_zero (Nat.ne_of_gt (Nat.zero_lt_of_lt more))
      exact (readByteAt_end pace eof).bind (Consumes.pure _ _)
  | cons byte rest ih =>
      obtain ⟨room, rfl⟩ := Nat.exists_eq_succ_of_ne_zero (Nat.ne_of_gt (Nat.zero_lt_of_lt more))
      refine (readByteAt_cons pace byte rest eof).bind ?_
      dsimp only
      by_cases stops : options.stopsAt byte = true
      · rw [if_pos stops, ReadOptions.divide_stop stops]
        exact Consumes.pure _ _
      · rw [if_neg stops]
        rw [ReadOptions.divide_inside (by simpa using stops)] at more ⊢
        exact (ih (Nat.lt_of_succ_lt_succ more)).bind (Consumes.pure _ _)

theorem readPiecesAt_consumes {chunk : Nat} (positive : 0 < chunk) {fuel : Nat} {bytes : Bytes}
    (enough : bytes.length < fuel) :
    Consumes (readPiecesAt pace options chunk fuel) ⟨bytes, eof⟩ (options.divide ⟨bytes, eof⟩).1
      (options.divide ⟨bytes, eof⟩).2 := by
  induction fuel generalizing bytes with
  | zero => exact absurd enough (Nat.not_lt_zero _)
  | succ fuel ih =>
      by_cases full : chunk ≤ (options.divide ⟨bytes, eof⟩).1.1.length
      · refine (readPieceAt_full pace options eof full).bind ?_
        have shorter : (bytes.drop chunk).length < fuel := by
          rw [ReadOptions.divide_text] at full
          have within := PlainFile.text_length_le options bytes
          rw [List.length_drop]
          dsimp only at full
          omega
        rw [ReadOptions.divide_drop full]
        exact (ih shorter).bind (Consumes.pure _ _)
      · refine (readPieceAt_ends pace options eof (Nat.lt_of_not_le full)).bind ?_
        rcases options.divide ⟨bytes, eof⟩ with ⟨⟨text, stop⟩, left⟩
        cases stop with
        | none => exact Consumes.pure _ _
        | some byte => exact Consumes.pure _ _

end Piece

theorem gatherAt_consumes (pace : Pace) (options : ReadOptions) {chunk : Nat} (positive : 0 < chunk)
    (input : Input) :
    Consumes (gatherAt pace options chunk) input (options.cutOff input.bytes).1
      (options.divide input).2 := by
  refine (available_consumes input).bind ?_
  refine (readPiecesAt_consumes pace options input.eof positive (Nat.lt_succ_self _)).bind ?_
  rw [ReadOptions.cutOff_divide]
  rcases options.divide input with ⟨⟨text, stop⟩, left⟩
  cases stop with
  | none => exact Consumes.pure _ _
  | some byte => exact Consumes.pure _ _

/-- The reader cuts a text off the input, once the stream is turned to reading. -/
theorem readTextAt_run (pace : Pace) (options : ReadOptions) {chunk : Nat} (positive : 0 < chunk)
    {input : Input} {channel turned : Channel} (turns : prepareRead channel = (.ok (), turned))
    (supports : turned.Supports input) :
    ∃ after, readTextAt pace options chunk channel = (.ok (options.cut input.bytes).1, after)
      ∧ after.Supports (options.divide (options.begin input)).2 := by
  have gathers := gatherAt_consumes pace options positive (options.begin input)
  rw [ReadOptions.begin_bytes] at gathers
  rw [readTextAt, Effect.bind_ok turns]
  unfold ReadOptions.begin at gathers ⊢
  by_cases blanks : options.stopBlank = true
  · rw [if_pos blanks] at gathers ⊢
    rw [if_pos blanks]
    have skips := skipBlanksAt_consumes pace input.bytes input.eof (Nat.lt_succ_self _)
    exact (available_consumes input).bind (skips.bind gathers) turned supports
  · rw [if_neg blanks] at gathers ⊢
    rw [if_neg blanks]
    exact gathers turned supports

/-- Pending output is written first, and then the stream turns to reading. -/
theorem prepareRead_run {channel flushed : Channel}
    (waits : channel.stream.pending ≠ [] → channel.stream.direction = .write)
    (written : flush channel = (.ok (), flushed)) :
    prepareRead channel
      = (.ok (), { flushed with stream := { flushed.stream with direction := .read } }) := by
  unfold prepareRead
  rw [Effect.get_bind_run]
  by_cases outward : channel.stream.direction = .write
  · rw [outward]
    exact Effect.bind_ok written
  · have nothing : channel.stream.pending = [] := by
      apply Decidable.byContradiction
      exact fun some => outward (waits some)
    rw [flush_nothing nothing] at written
    cases written
    rw [beq_eq_false_iff_ne.mpr outward]
    rfl

theorem prepareRead_refused {channel failed : Channel} {fault : Fault}
    (waits : channel.stream.pending ≠ [] → channel.stream.direction = .write)
    (refused : flush channel = (.error fault, failed)) :
    prepareRead channel = (.error fault, failed) := by
  have outward : channel.stream.direction = .write := by
    apply waits
    intro nothing
    rw [flush_nothing nothing] at refused
    cases refused
  unfold prepareRead
  rw [Effect.get_bind_run, outward]
  exact Effect.bind_error refused

end Transfer

namespace Files

variable {files : Files} {id : FileId} {entry : Entry}

theorem readTextAt_run (found : files.table.find? id = some entry) (reading : entry.mode.reading = true)
    (pace : Pace) (options : ReadOptions) {answer : Except Fault (Option Bytes)} {after : Channel}
    (ran : Transfer.readTextAt pace options files.table.readChunk
      { stream := entry.stream, host := files.host } = (answer, after)) :
    readTextAt pace id options files
      = (answer.mapError FileError.host,
        { table := files.table.setStream id after.stream, host := after.host }) := by
  rw [readTextAt, Effect.bind_ok (readableEntry_found found reading), Effect.get_bind_run, run, ran,
    FileTable.id_of_find? found]

theorem chunk_over_runs (host : Host) (maxFiles readChunk : Nat) (adopt : Bool) (calls : List FileCall) :
    0 < (FileCall.afterAll calls (Files.new host maxFiles readChunk adopt)).table.readChunk :=
  FileCall.afterAll_keeps (fun _ _ step => step.chunk) calls
    (Files.new_chunk host maxFiles readChunk adopt)

end Files

/-- The bytes that are left decide what is read as a text and what is left then, at any pace of the host
and with any read chunk. Where the host refuses pending output, so does the reader. What the reader asks
of the stream and the table holds in every state of every run. -/
theorem texts_are_cut_off :
    (∀ {files : Files} {id : FileId} {entry : Entry} (pace : Pace) (options : ReadOptions),
        files.table.find? id = some entry → entry.mode.reading = true →
        0 < files.table.readChunk →
        (entry.stream.pending ≠ [] → entry.stream.direction = .write) →
        (∀ flushed bytes,
          Transfer.flush { stream := entry.stream, host := files.host } = (.ok (), flushed) →
          flushed.Delivers bytes →
          ∃ after : Channel,
            Files.readTextAt pace id options files
              = (.ok (options.cut bytes).1,
                { table := files.table.setStream id after.stream, host := after.host })
            ∧ after.Delivers (options.cut bytes).2
            ∧ ((∀ byte ∈ options.opening bytes, options.stopsAt byte = false) →
              (options.cut bytes).2 = [] ∧ after.stream.eof = true))
        ∧ ∀ fault failed,
          Transfer.flush { stream := entry.stream, host := files.host } = (.error fault, failed) →
          (Files.readTextAt pace id options files).1 = .error (.host fault))
      ∧ (∀ id options, Files.readTextAt .prompt id options = Files.readText id options)
      ∧ ∀ host maxFiles readChunk adopt calls,
          let files := FileCall.afterAll calls (Files.new host maxFiles readChunk adopt)
          0 < files.table.readChunk ∧ ∀ id entry, files.table.find? id = some entry →
            (entry.stream.pending ≠ [] → entry.stream.direction = .write) := by
  refine ⟨?_, Files.readTextAt_prompt, ?_⟩
  · intro files id entry pace options found reading chunk waits
    constructor
    · intro flushed bytes written delivers
      have turned := Transfer.prepareRead_run waits written
      have supports : Channel.Supports
          { flushed with stream := { flushed.stream with direction := .read } }
          ⟨bytes, flushed.stream.eof⟩ := ⟨delivers, rfl⟩
      obtain ⟨after, ran, left, noted⟩ :=
        Transfer.readTextAt_run pace options chunk turned supports
      have begun := options.begin_bytes ⟨bytes, flushed.stream.eof⟩
      have behind : (options.cut bytes).2
          = (options.divide (options.begin ⟨bytes, flushed.stream.eof⟩)).2.bytes := by
        rw [ReadOptions.cut, ← begun, ReadOptions.cutOff_divide]
      refine ⟨after, ?_, by rwa [behind], ?_⟩
      · rw [Files.readTextAt_run found reading pace options ran]
        rfl
      · intro none
        rw [← begun] at none
        rw [behind, noted, ReadOptions.divide_unstopped none]
        exact ⟨rfl, rfl⟩
    · intro fault failed refused
      have ran : Transfer.readTextAt pace options files.table.readChunk
          { stream := entry.stream, host := files.host } = (.error fault, failed) :=
        Effect.bind_error (Transfer.prepareRead_refused waits refused)
      rw [Files.readTextAt_run found reading pace options ran]
      rfl
  · intro host maxFiles readChunk adopt calls files
    refine ⟨Files.chunk_over_runs host maxFiles readChunk adopt calls, ?_⟩
    intro id entry found
    exact ((Files.tidy_over_runs host maxFiles readChunk adopt calls).found found).output

namespace PaceSample

/-- A host that answers with one byte at a time. -/
def single : Pace where
  portion := fun _ _ count => min count 1
  some := fun _ _ _ asked => Nat.lt_min.mpr ⟨asked, Nat.one_pos⟩
  most := fun _ _ count => Nat.min_le_left count 1

/-- Standard input is a pipe of a line and a byte more, and texts are gathered two bytes at a time. -/
def files : Files :=
  Files.new (Host.start none none [0x61, 0x62, 0x63, 0x0A, 0x64] true) 20 2 false

def entry : Entry where
  id := .stdin
  name := "(stdin)"
  mode := { base := .read, binary := false, update := false }
  node := some 7
  stream := Stream.new 0 false

/-- A line is read whole although it comes byte by byte, and so is all the rest, up to the end. -/
theorem line_comes_byte_by_byte :
    (∃ after : Channel, Files.readTextAt single .stdin .strippedLine files
          = (.ok (some [0x61, 0x62, 0x63]),
            { table := files.table.setStream .stdin after.stream, host := after.host })
        ∧ after.Delivers [0x64])
      ∧ ∃ after : Channel, Files.readTextAt single .stdin .everything files
          = (.ok (some [0x61, 0x62, 0x63, 0x0A, 0x64]),
            { table := files.table.setStream .stdin after.stream, host := after.host })
        ∧ after.stream.eof = true := by
  have found : files.table.find? .stdin = some entry := rfl
  have chunk : 0 < files.table.readChunk := by decide
  have piped : files.host.rest? entry.stream.descriptor = some [0x61, 0x62, 0x63, 0x0A, 0x64] := rfl
  have whole : Channel.Delivers { stream := entry.stream, host := files.host }
      [0x61, 0x62, 0x63, 0x0A, 0x64] := ⟨_, piped, rfl⟩
  have cut (options : ReadOptions) :=
    (texts_are_cut_off.1 single options found rfl chunk (fun waits => absurd rfl waits)).1 _ _ rfl whole
  obtain ⟨after, ran, left, _⟩ := cut .strippedLine
  obtain ⟨last, rest, _, noted⟩ := cut .everything
  exact ⟨⟨after, ran, left⟩, last, rest, (noted fun _ _ => rfl).2⟩

end PaceSample

end Calculator
