import Calculator.Proofs.Effect
import Calculator.Proofs.Occurrence

/-!
# Streams are plain files

A stream mirrors a plain file when its buffers and the file behind its descriptor make up the content,
the position and the pushed back bytes of the plain one. Every transfer does to the plain file what its
plain counterpart does, wherever the buffers happen to begin and to end.
-/

namespace Calculator

/-- A stream whose descriptor stands at `offset` of a file that holds `disk` shows the plain `file`.
Output waits only while the last transfer was a write, input only while it was a read. -/
structure Stream.Mirrors (stream : Stream) (offset : Nat) (disk : Bytes) (file : PlainFile) :
    Prop where
  content : file.content = disk.patch offset stream.pending
  position : file.position + stream.ahead.length = offset + stream.pending.length
  ahead : stream.ahead = (disk.drop file.position).take stream.ahead.length
  pushed : file.pushed = stream.pushback
  eof : file.eof = stream.eof
  direction : file.direction = stream.direction
  output : stream.pending ≠ [] → stream.direction = .write
  direct : stream.buffered = false → stream.pending = []
  input : stream.direction ≠ .read → stream.ahead = [] ∧ stream.pushback = []
  room : stream.pushback.length ≤ file.position
  fits : offset + stream.pending.length ≤ Content.maxSize
  sized : disk.length ≤ Content.maxSize

/-- The channel shows the plain `file`, which is kept in `node`. -/
def Channel.Mirrors (channel : Channel) (node : NodeId) (file : PlainFile) : Prop :=
  ∃ offset disk, channel.host.Holds channel.stream.descriptor node offset disk
    ∧ channel.stream.Mirrors offset disk file

namespace Stream.Mirrors

variable {stream : Stream} {offset : Nat} {disk : Bytes} {file : PlainFile}

theorem nothing_pending (mirrors : stream.Mirrors offset disk file)
    (elsewhere : stream.direction ≠ .write) : stream.pending = [] := by
  apply Decidable.byContradiction
  intro waiting
  exact elsewhere (mirrors.output waiting)

theorem content_of_nothing_pending (mirrors : stream.Mirrors offset disk file)
    (written : stream.pending = []) : file.content = disk := by
  rw [mirrors.content, written, Bytes.patch_nil]

theorem nothing_ahead (mirrors : stream.Mirrors offset disk file) (waiting : stream.pending ≠ []) :
    stream.ahead = [] ∧ stream.pushback = [] := by
  apply mirrors.input
  rw [mirrors.output waiting]
  decide

theorem tell_eq (mirrors : stream.Mirrors offset disk file) :
    file.tell = offset + stream.pending.length - stream.aheadCount := by
  have stands := mirrors.position
  rw [PlainFile.tell, mirrors.pushed, Stream.aheadCount]
  omega

theorem aheadCount_le (mirrors : stream.Mirrors offset disk file) :
    stream.aheadCount ≤ offset + stream.pending.length := by
  have stands := mirrors.position
  have room := mirrors.room
  rw [Stream.aheadCount]
  omega

theorem remaining_eq (mirrors : stream.Mirrors offset disk file) (written : stream.pending = []) :
    file.remaining = stream.pushback ++ stream.ahead ++ disk.drop offset := by
  have stands := mirrors.position
  have behind : file.position + stream.ahead.length = offset := by
    simpa [written] using stands
  have split := List.take_append_drop stream.ahead.length (disk.drop file.position)
  rw [← mirrors.ahead, List.drop_drop, behind] at split
  rw [PlainFile.remaining, mirrors.pushed, mirrors.content_of_nothing_pending written, ← split,
    List.append_assoc]

theorem flushed (mirrors : stream.Mirrors offset disk file) :
    ({ stream with pending := [] } : Stream).Mirrors (offset + stream.pending.length)
      (disk.patch offset stream.pending) file where
  content := mirrors.content
  position := by simpa using mirrors.position
  ahead := by
    by_cases written : stream.pending = []
    · simpa [written] using mirrors.ahead
    · simp [(mirrors.nothing_ahead written).1]
  pushed := mirrors.pushed
  eof := mirrors.eof
  direction := mirrors.direction
  output := by simp
  direct := fun _ => rfl
  input := mirrors.input
  room := mirrors.room
  fits := by simpa using mirrors.fits
  sized := by
    by_cases written : stream.pending = []
    · simpa [written] using mirrors.sized
    · rw [Bytes.patch_length disk offset written]
      exact Nat.max_le.mpr ⟨mirrors.sized, mirrors.fits⟩

/-- A stream may turn where its new direction allows what is still buffered. -/
theorem turned (mirrors : stream.Mirrors offset disk file) (direction : Direction) (failed : Bool)
    (output : stream.pending ≠ [] → direction = .write)
    (input : direction ≠ .read → stream.ahead = [] ∧ stream.pushback = []) :
    ({ stream with direction, failed } : Stream).Mirrors offset disk (file.toward direction) where
  content := mirrors.content
  position := mirrors.position
  ahead := mirrors.ahead
  pushed := mirrors.pushed
  eof := mirrors.eof
  direction := rfl
  output := output
  direct := mirrors.direct
  input := input
  room := mirrors.room
  fits := mirrors.fits
  sized := mirrors.sized

theorem toward_read (mirrors : stream.Mirrors offset disk file) (written : stream.pending = []) :
    ({ stream with direction := .read } : Stream).Mirrors offset disk (file.toward .read) :=
  mirrors.turned .read stream.failed (fun waiting => absurd written waiting)
    (fun elsewhere => absurd rfl elsewhere)

theorem moved (mirrors : stream.Mirrors offset disk file) (written : stream.pending = [])
    {target : Nat} (inside : target ≤ Content.maxSize) :
    ({ stream with ahead := [], pushback := [], eof := false } : Stream).Mirrors target disk
      (file.goTo target) where
  content := by
    rw [written, Bytes.patch_nil]
    exact mirrors.content_of_nothing_pending written
  position := by simp [PlainFile.goTo, written]
  ahead := by simp
  pushed := rfl
  eof := rfl
  direction := mirrors.direction
  output := mirrors.output
  direct := mirrors.direct
  input := fun _ => ⟨rfl, rfl⟩
  room := Nat.zero_le _
  fits := by simpa [written] using inside
  sized := mirrors.sized

theorem unpushed {byte : UInt8} {rest : Bytes} (mirrors : stream.Mirrors offset disk file)
    (pushed : stream.pushback = byte :: rest) :
    ({ stream with pushback := rest } : Stream).Mirrors offset disk (file.advance 1) where
  content := mirrors.content
  position := by simpa [PlainFile.advance, mirrors.pushed, pushed] using mirrors.position
  ahead := by simpa [PlainFile.advance, mirrors.pushed, pushed] using mirrors.ahead
  pushed := by simp [PlainFile.advance, mirrors.pushed, pushed]
  eof := mirrors.eof
  direction := mirrors.direction
  output := mirrors.output
  direct := mirrors.direct
  input := by
    intro elsewhere
    simpa [pushed] using mirrors.input elsewhere
  room := by
    have room := mirrors.room
    rw [pushed, List.length_cons] at room
    simp only [PlainFile.advance]
    omega
  fits := mirrors.fits
  sized := mirrors.sized

/-- Handing out a byte that was fetched before. The descriptor may have been moved by the fetch. -/
theorem fetched {byte : UInt8} {rest : Bytes} {reached : Nat}
    (mirrors : stream.Mirrors offset disk file) (reading : stream.direction = .read)
    (unpushed : stream.pushback = []) (inside : reached ≤ Content.maxSize)
    (stands : file.position + (rest.length + 1) = reached)
    (held : byte :: rest = (disk.drop file.position).take (rest.length + 1)) :
    ({ stream with ahead := rest } : Stream).Mirrors reached disk (file.advance 1) := by
  have written : stream.pending = [] := mirrors.nothing_pending (by simp [reading])
  have further : (file.advance 1).position = file.position + 1 := by
    simp [PlainFile.advance, mirrors.pushed, unpushed]
  constructor
  · rw [written, Bytes.patch_nil]
    exact mirrors.content_of_nothing_pending written
  · simp only [further, written, List.length_nil]
    omega
  · rw [further, ← List.drop_drop]
    cases behind : disk.drop file.position with
    | nil => simp [behind] at held
    | cons first others =>
        rw [behind, List.take_succ_cons, List.cons.injEq] at held
        exact held.2
  · simp [PlainFile.advance, mirrors.pushed, unpushed]
  · exact mirrors.eof
  · exact mirrors.direction
  · exact mirrors.output
  · exact mirrors.direct
  · intro elsewhere
    exact absurd reading elsewhere
  · simp [unpushed]
  · simpa [written] using inside
  · exact mirrors.sized

theorem ended (mirrors : stream.Mirrors offset disk file) (nothing : file.remaining = []) :
    ({ stream with eof := true } : Stream).Mirrors offset disk file.exhaust := by
  have spent : file.exhaust = { file with eof := true } := by
    simp [PlainFile.exhaust, PlainFile.advance_zero, nothing]
  rw [spent]
  exact {
    content := mirrors.content
    position := mirrors.position
    ahead := mirrors.ahead
    pushed := mirrors.pushed
    eof := rfl
    direction := mirrors.direction
    output := mirrors.output
    direct := mirrors.direct
    input := mirrors.input
    room := mirrors.room
    fits := mirrors.fits
    sized := mirrors.sized }

theorem pushedBack (mirrors : stream.Mirrors offset disk file) (reading : stream.direction = .read)
    (inside : 0 < file.tell) (byte : UInt8) :
    ({ stream with pushback := byte :: stream.pushback, eof := false } : Stream).Mirrors offset disk
      (file.push byte) where
  content := mirrors.content
  position := mirrors.position
  ahead := mirrors.ahead
  pushed := congrArg (byte :: ·) mirrors.pushed
  eof := rfl
  direction := mirrors.direction
  output := mirrors.output
  direct := mirrors.direct
  input := fun elsewhere => absurd reading elsewhere
  room := by
    rw [PlainFile.tell, mirrors.pushed] at inside
    simp only [PlainFile.push, List.length_cons]
    omega
  fits := mirrors.fits
  sized := mirrors.sized

theorem settled (mirrors : stream.Mirrors offset disk file) (written : stream.pending = []) :
    ({ stream with ahead := [], pushback := [], direction := .write } : Stream).Mirrors file.tell disk
      (file.write []) where
  content := by simpa [PlainFile.write, written] using mirrors.content_of_nothing_pending written
  position := by simp [PlainFile.write, written]
  ahead := by simp
  pushed := rfl
  eof := mirrors.eof
  direction := rfl
  output := fun _ => rfl
  direct := mirrors.direct
  input := fun _ => ⟨rfl, rfl⟩
  room := Nat.zero_le _
  fits := by
    have place := mirrors.tell_eq
    have fits := mirrors.fits
    simp only [written, List.length_nil] at place fits ⊢
    omega
  sized := mirrors.sized

theorem write_nil (mirrors : stream.Mirrors offset disk file) (outward : stream.direction ≠ .read) :
    file.write [] = file.toward .write := by
  have unpushed : file.pushed = [] := by rw [mirrors.pushed, (mirrors.input outward).2]
  simp [PlainFile.write, PlainFile.toward, PlainFile.tell, unpushed]

theorem collected (mirrors : stream.Mirrors offset disk file) (outward : stream.direction = .write)
    (buffered : stream.buffered = true) {bytes : Bytes}
    (inside : file.tell + bytes.length ≤ Content.maxSize) :
    ({ stream with pending := stream.pending ++ bytes } : Stream).Mirrors offset disk
      (file.write bytes) := by
  obtain ⟨unfetched, unpushed⟩ := mirrors.input (by simp [outward])
  have place : file.tell = offset + stream.pending.length := by
    simpa [Stream.aheadCount, unfetched, unpushed] using mirrors.tell_eq
  constructor
  · rw [PlainFile.write, place, mirrors.content, Bytes.patch_append]
  · simp only [PlainFile.write, place, unfetched, List.length_nil, List.length_append]
    omega
  · simp [unfetched]
  · exact unpushed.symm
  · exact mirrors.eof
  · exact outward.symm
  · exact fun _ => outward
  · simp [buffered]
  · exact fun _ => ⟨unfetched, unpushed⟩
  · simp [unpushed]
  · rw [List.length_append]
    omega
  · exact mirrors.sized

theorem written (mirrors : stream.Mirrors offset disk file) (outward : stream.direction = .write)
    (unbuffered : stream.buffered = false) {bytes : Bytes}
    (inside : file.tell + bytes.length ≤ Content.maxSize) :
    stream.Mirrors (offset + bytes.length) (disk.patch offset bytes) (file.write bytes) := by
  obtain ⟨unfetched, unpushed⟩ := mirrors.input (by simp [outward])
  have nothing := mirrors.direct unbuffered
  have place : file.tell = offset := by
    simpa [Stream.aheadCount, unfetched, unpushed, nothing] using mirrors.tell_eq
  constructor
  · rw [nothing, Bytes.patch_nil, PlainFile.write, place, mirrors.content_of_nothing_pending nothing]
  · simp [PlainFile.write, place, unfetched, nothing]
  · simp [unfetched]
  · exact unpushed.symm
  · exact mirrors.eof
  · exact outward.symm
  · exact mirrors.output
  · exact mirrors.direct
  · exact fun _ => ⟨unfetched, unpushed⟩
  · simp [unpushed]
  · simp only [nothing, List.length_nil]
    omega
  · by_cases empty : bytes = []
    · simpa [empty] using mirrors.sized
    · rw [Bytes.patch_length disk offset empty]
      have sized := mirrors.sized
      omega

end Stream.Mirrors

theorem Channel.Mirrors.room {channel : Channel} {node : NodeId} {file : PlainFile}
    (mirrors : channel.Mirrors node file) : file.pushed.length ≤ file.position := by
  obtain ⟨offset, disk, _, shows⟩ := mirrors
  rw [shows.pushed]
  exact shows.room

theorem Channel.Mirrors.content_length_le {channel : Channel} {node : NodeId} {file : PlainFile}
    (mirrors : channel.Mirrors node file) : file.content.length ≤ Content.maxSize := by
  obtain ⟨offset, disk, _, shows⟩ := mirrors
  rw [shows.content]
  exact shows.flushed.sized

theorem Channel.Mirrors.tell_le {channel : Channel} {node : NodeId} {file : PlainFile}
    (mirrors : channel.Mirrors node file) : file.tell ≤ Content.maxSize := by
  obtain ⟨offset, disk, _, shows⟩ := mirrors
  rw [shows.tell_eq]
  exact Nat.le_trans (Nat.sub_le _ _) shows.fits

namespace Transfer

/-- The transfer succeeds with `result` and leaves the plain `file` in the same node; no other node
sees it. -/
def Yields {α : Type} (transfer : Transfer α) (channel : Channel) (node : NodeId) (result : α)
    (file : PlainFile) : Prop :=
  ∃ after, transfer channel = (.ok result, after) ∧ after.Mirrors node file
    ∧ after.stream.descriptor = channel.stream.descriptor
    ∧ ∀ other, other ≠ node → Host.SameAt other channel.host after.host

variable {α β : Type} {channel : Channel} {node : NodeId} {file : PlainFile}

theorem Yields.bind {transfer : Transfer α} {next : α → Transfer β} {result : α} {final : β}
    {middle : PlainFile} (first : transfer.Yields channel node result middle)
    (second : ∀ after : Channel, after.Mirrors node middle →
      (next result).Yields after node final file) :
    (transfer >>= next).Yields channel node final file := by
  obtain ⟨between, ran, mirrors, descriptor, elsewhere⟩ := first
  obtain ⟨after, continued, reached, kept, apart⟩ := second between mirrors
  refine ⟨after, ?_, reached, kept.trans descriptor, ?_⟩
  · rw [Effect.bind_ok ran, continued]
  · intro other differs
    exact (elsewhere other differs).trans (apart other differs)

theorem Yields.pure (mirrors : channel.Mirrors node file) (result : α) :
    Yields (Pure.pure result) channel node result file :=
  ⟨channel, rfl, mirrors, rfl, fun other _ => Host.SameAt.refl other channel.host⟩

theorem Yields.get {next : Channel → Transfer α} {result : α}
    (continued : (next channel).Yields channel node result file) :
    ((MonadState.get : Transfer Channel) >>= next).Yields channel node result file :=
  continued

theorem modifyStream_yields {change : Stream → Stream} {offset : Nat} {disk : Bytes}
    (holds : channel.host.Holds channel.stream.descriptor node offset disk)
    (descriptor : (change channel.stream).descriptor = channel.stream.descriptor)
    (mirrors : (change channel.stream).Mirrors offset disk file) :
    (modifyStream change).Yields channel node () file :=
  ⟨{ channel with stream := change channel.stream }, rfl, ⟨offset, disk, by rwa [descriptor], mirrors⟩,
    descriptor, fun other _ => Host.SameAt.refl other channel.host⟩

theorem request_run (run : Host → DescriptorId → Except Fault α × Host) (channel : Channel)
    {result : α} {after : Host}
    (answered : run channel.host channel.stream.descriptor = (.ok result, after)) :
    request run channel = (.ok result, { channel with host := after }) := by
  simp [request, answered]

theorem flush_run {offset : Nat} {disk : Bytes}
    (holds : channel.host.Holds channel.stream.descriptor node offset disk)
    (mirrors : channel.stream.Mirrors offset disk file) :
    ∃ after, flush channel = (.ok (), { stream := { channel.stream with pending := [] }, host := after })
      ∧ after.Holds channel.stream.descriptor node (offset + channel.stream.pending.length)
        (disk.patch offset channel.stream.pending)
      ∧ ∀ other, other ≠ node → Host.SameAt other channel.host after := by
  obtain ⟨after, written, held, elsewhere⟩ :=
    Host.write_regular holds channel.stream.pending mirrors.fits
  refine ⟨after, ?_, held, elsewhere⟩
  exact request_run (fun host descriptor => host.write descriptor channel.stream.pending)
    { channel with stream := { channel.stream with pending := [] } } written

theorem flush_yields (mirrors : channel.Mirrors node file) :
    flush.Yields channel node () file := by
  obtain ⟨offset, disk, holds, shows⟩ := mirrors
  obtain ⟨after, ran, held, elsewhere⟩ := flush_run holds shows
  exact ⟨_, ran, ⟨_, _, held, shows.flushed⟩, rfl, elsewhere⟩

theorem prepareRead_yields (mirrors : channel.Mirrors node file) :
    prepareRead.Yields channel node () (file.toward .read) := by
  obtain ⟨offset, disk, holds, shows⟩ := mirrors
  unfold prepareRead
  by_cases writing : channel.stream.direction = .write
  · obtain ⟨after, ran, held, elsewhere⟩ := flush_run holds shows
    refine ⟨{ stream := { channel.stream with pending := [], direction := .read }, host := after },
      ?_, ⟨_, _, held, shows.flushed.toward_read rfl⟩, rfl, elsewhere⟩
    rw [Effect.get_bind_run, writing]
    exact Effect.bind_ok ran
  · refine ⟨{ channel with stream := { channel.stream with direction := .read } }, ?_,
      ⟨_, _, holds, shows.toward_read (shows.nothing_pending writing)⟩, rfl,
      fun other _ => Host.SameAt.refl other _⟩
    rw [Effect.get_bind_run, beq_eq_false_iff_ne.mpr writing]
    rfl

/-- Going to a place writes the output out and leaves nothing buffered. -/
theorem seek_run {offset : Nat} {disk : Bytes} {target : Nat}
    (holds : channel.host.Holds channel.stream.descriptor node offset disk)
    (mirrors : channel.stream.Mirrors offset disk file) (inside : target ≤ Content.maxSize) :
    ∃ after, seek target channel
        = (.ok (), {
            stream := { channel.stream with pending := [], ahead := [], pushback := [], eof := false }
            host := after })
      ∧ after.Holds channel.stream.descriptor node target (disk.patch offset channel.stream.pending)
      ∧ ∀ other, other ≠ node → Host.SameAt other channel.host after := by
  obtain ⟨flushed, ran, held, elsewhere⟩ := flush_run holds mirrors
  refine ⟨flushed.setOffset channel.stream.descriptor target, ?_, held.setOffset target, ?_⟩
  · unfold seek
    rw [Effect.bind_ok ran]
    exact request_run (fun host descriptor => host.seek descriptor target)
      { stream := _, host := flushed } (Host.seek_regular held inside)
  · intro other apart
    exact (elsewhere other apart).trans (held.setOffset_sameAt target apart)

theorem seek_yields (mirrors : channel.Mirrors node file) {target : Nat}
    (inside : target ≤ Content.maxSize) : (seek target).Yields channel node () (file.goTo target) := by
  obtain ⟨offset, disk, holds, shows⟩ := mirrors
  obtain ⟨after, ran, held, elsewhere⟩ := seek_run holds shows inside
  exact ⟨_, ran, ⟨_, _, held, shows.flushed.moved rfl inside⟩, rfl, elsewhere⟩

theorem reposition_yields (mirrors : channel.Mirrors node file) {target : Nat}
    (inside : target ≤ Content.maxSize) :
    (reposition target).Yields channel node () ((file.goTo target).toward .none) := by
  obtain ⟨offset, disk, holds, shows⟩ := mirrors
  obtain ⟨after, ran, held, elsewhere⟩ := seek_run holds shows inside
  have free := (shows.flushed.moved rfl inside).turned .none channel.stream.failed
    (absurd rfl) (fun _ => ⟨rfl, rfl⟩)
  exact ⟨_, Effect.bind_ok ran, ⟨_, _, held, free⟩, rfl, elsewhere⟩

theorem rewind_yields (mirrors : channel.Mirrors node file) :
    rewind.Yields channel node () ((file.goTo 0).toward .none) := by
  obtain ⟨offset, disk, holds, shows⟩ := mirrors
  have inside : 0 ≤ Content.maxSize := Nat.zero_le _
  obtain ⟨after, ran, held, elsewhere⟩ := seek_run holds shows inside
  have free := (shows.flushed.moved rfl inside).turned .none false (absurd rfl)
    (fun _ => ⟨rfl, rfl⟩)
  exact ⟨_, Effect.bind_ok ran, ⟨_, _, held, free⟩, rfl, elsewhere⟩

theorem position_yields (mirrors : channel.Mirrors node file) :
    position.Yields channel node file.tell file := by
  obtain ⟨offset, disk, holds, shows⟩ := mirrors
  refine ⟨channel, ?_, ⟨offset, disk, holds, shows⟩, rfl, fun other _ => Host.SameAt.refl other _⟩
  simp only [position, Host.tell_regular holds, shows.tell_eq]

theorem size_yields (mirrors : channel.Mirrors node file) :
    size.Yields channel node file.content.length file := by
  obtain ⟨offset, disk, holds, shows⟩ := mirrors
  obtain ⟨after, ran, held, elsewhere⟩ := flush_run holds shows
  refine ⟨{ stream := { channel.stream with pending := [] }, host := after }, ?_,
    ⟨_, _, held, shows.flushed⟩, rfl, elsewhere⟩
  unfold size
  rw [Effect.bind_ok ran, shows.content, ← Host.size_regular held]

/-- A read that finds nothing buffered fetches from the descriptor. -/
theorem fetch_yields {offset : Nat} {disk : Bytes}
    (holds : channel.host.Holds channel.stream.descriptor node offset disk)
    (shows : channel.stream.Mirrors offset disk file) (inward : channel.stream.direction = .read)
    (unpushed : channel.stream.pushback = []) (unfetched : channel.stream.ahead = []) :
    readByte.Yields channel node file.next.1 file.next.2 := by
  have written : channel.stream.pending = [] := shows.nothing_pending (by simp [inward])
  have remaining : file.remaining = disk.drop offset := by
    simpa [unpushed, unfetched] using shows.remaining_eq written
  have stands : file.position = offset := by
    simpa [written, unfetched] using shows.position
  have answered := request_run (fun host descriptor => host.read descriptor Stream.bufferSize)
    channel (Host.read_regular holds Stream.bufferSize)
  have elsewhere (reached : Nat) (other : NodeId) (apart : other ≠ node) :=
    holds.setOffset_sameAt reached apart
  unfold readByte
  cases behind : disk.drop offset with
  | nil =>
      rw [behind, List.take_nil] at answered
      have kept := holds.setOffset (offset + ([] : Bytes).length)
      have ended := shows.ended (remaining.trans behind)
      rw [PlainFile.next_of_nil (remaining.trans behind)]
      refine ⟨{ stream := { channel.stream with eof := true }, host := _ }, ?_,
        ⟨offset, disk, kept, ended⟩, rfl, elsewhere _⟩
      rw [Effect.get_bind_run, unpushed, unfetched]
      exact Effect.bind_ok answered
  | cons byte others =>
      -- The buffer ends where it is full or where the file does; either is within the file.
      let size := Stream.bufferSize - 1
      have buffer : (byte :: others).take Stream.bufferSize = byte :: others.take size := rfl
      have length := congrArg List.length behind
      rw [List.length_drop, List.length_cons] at length
      have sized := shows.sized
      have held : byte :: others.take size
          = (disk.drop file.position).take ((others.take size).length + 1) := by
        rw [stands, behind, List.take_succ_cons, List.cons.injEq]
        refine ⟨rfl, ?_⟩
        rw [List.take_eq_take_iff, List.length_take]
        omega
      rw [behind, buffer, List.length_cons] at answered
      have moved := shows.fetched inward unpushed (by rw [List.length_take]; omega)
        (congrArg (· + ((others.take size).length + 1)) stands) held
      rw [PlainFile.next_of_cons (remaining.trans behind)]
      refine ⟨{ stream := { channel.stream with ahead := others.take size }, host := _ }, ?_,
        ⟨_, disk, holds.setOffset _, moved⟩, rfl, elsewhere _⟩
      rw [Effect.get_bind_run, unpushed, unfetched]
      exact Effect.bind_ok answered

theorem readByte_yields (mirrors : channel.Mirrors node file) (reading : file.direction = .read) :
    readByte.Yields channel node file.next.1 file.next.2 := by
  obtain ⟨offset, disk, holds, shows⟩ := mirrors
  have inward : channel.stream.direction = .read := shows.direction.symm.trans reading
  have written : channel.stream.pending = [] := shows.nothing_pending (by simp [inward])
  have remaining := shows.remaining_eq written
  cases pushed : channel.stream.pushback with
  | cons byte rest =>
      rw [PlainFile.next_of_cons (by rw [remaining, pushed]; rfl)]
      refine ⟨{ channel with stream := { channel.stream with pushback := rest } }, ?_,
        ⟨offset, disk, holds, shows.unpushed pushed⟩, rfl, fun other _ => Host.SameAt.refl other _⟩
      unfold readByte
      rw [Effect.get_bind_run, pushed]
      rfl
  | nil =>
      cases fetched : channel.stream.ahead with
      | cons byte rest =>
          have stands := shows.position
          have held := shows.ahead
          rw [written, fetched] at stands
          rw [fetched] at held
          have moved := shows.fetched inward pushed (by simpa [written] using shows.fits) stands held
          rw [PlainFile.next_of_cons (by rw [remaining, pushed, fetched]; rfl)]
          refine ⟨{ channel with stream := { channel.stream with ahead := rest } }, ?_,
            ⟨offset, disk, holds, moved⟩, rfl, fun other _ => Host.SameAt.refl other _⟩
          unfold readByte
          rw [Effect.get_bind_run, pushed, fetched]
          rfl
      | nil =>
          exact fetch_yields holds shows inward pushed fetched

theorem unread_yields (mirrors : channel.Mirrors node file) (reading : file.direction = .read)
    (inside : 0 < file.tell) (byte : UInt8) :
    (unread byte).Yields channel node () (file.push byte) := by
  obtain ⟨offset, disk, holds, shows⟩ := mirrors
  exact modifyStream_yields holds rfl
    (shows.pushedBack (shows.direction.symm.trans reading) inside byte)

/-- The descriptor goes back to where reading stopped. -/
theorem discardAhead_run {offset : Nat} {disk : Bytes}
    (holds : channel.host.Holds channel.stream.descriptor node offset disk)
    (mirrors : channel.stream.Mirrors offset disk file) (written : channel.stream.pending = []) :
    ∃ after, discardAhead channel
        = (.ok (), { stream := { channel.stream with ahead := [], pushback := [] }, host := after })
      ∧ after.Holds channel.stream.descriptor node file.tell disk
      ∧ ∀ other, other ≠ node → Host.SameAt other channel.host after := by
  have place : file.tell = offset - channel.stream.aheadCount := by
    simpa [written] using mirrors.tell_eq
  have enough : channel.stream.aheadCount ≤ offset := by
    simpa [written] using mirrors.aheadCount_le
  have fits := mirrors.fits
  unfold discardAhead
  by_cases ahead : channel.stream.aheadCount > 0
  · have moved := Host.seekBack_regular holds enough (by omega)
    refine ⟨channel.host.setOffset channel.stream.descriptor file.tell, ?_, holds.setOffset _,
      fun other apart => holds.setOffset_sameAt _ apart⟩
    rw [Effect.get_bind_run, place]
    simp only [ahead, if_true]
    exact request_run (fun host descriptor => host.seekBack descriptor channel.stream.aheadCount)
      { channel with stream := { channel.stream with ahead := [], pushback := [] } } moved
  · refine ⟨channel.host, ?_, ?_, fun other _ => Host.SameAt.refl other _⟩
    · rw [Effect.get_bind_run]
      simp only [ahead, if_false]
      rfl
    · rwa [place, show offset - channel.stream.aheadCount = offset by omega]

theorem prepareWrite_yields (mirrors : channel.Mirrors node file) :
    prepareWrite.Yields channel node () (file.write []) := by
  obtain ⟨offset, disk, holds, shows⟩ := mirrors
  unfold prepareWrite
  by_cases reading : channel.stream.direction = .read
  · have written := shows.nothing_pending (by simp [reading])
    obtain ⟨after, ran, held, elsewhere⟩ := discardAhead_run holds shows written
    refine ⟨{ stream := { channel.stream with ahead := [], pushback := [], direction := .write },
              host := after },
      ?_, ⟨_, _, held, shows.settled written⟩, rfl, elsewhere⟩
    rw [Effect.get_bind_run, reading]
    exact Effect.bind_ok ran
  · rw [shows.write_nil reading]
    refine ⟨{ channel with stream := { channel.stream with direction := .write } }, ?_,
      ⟨_, _, holds, shows.turned .write _ (fun _ => rfl) (fun _ => shows.input reading)⟩, rfl,
      fun other _ => Host.SameAt.refl other _⟩
    rw [Effect.get_bind_run, beq_eq_false_iff_ne.mpr reading]
    rfl

theorem writeAll_yields (mirrors : channel.Mirrors node file) (writing : file.direction = .write)
    {bytes : Bytes} (inside : file.tell + bytes.length ≤ Content.maxSize) :
    (writeAll bytes).Yields channel node () (file.write bytes) := by
  obtain ⟨offset, disk, holds, shows⟩ := mirrors
  have outward : channel.stream.direction = .write := shows.direction.symm.trans writing
  unfold writeAll
  cases buffered : channel.stream.buffered with
  | true =>
      let collected : Channel :=
        { channel with stream := { channel.stream with pending := channel.stream.pending ++ bytes } }
      have gathered : collected.Mirrors node (file.write bytes) :=
        ⟨offset, disk, holds, shows.collected outward buffered inside⟩
      -- Whether the buffer is written out now or later is not seen.
      by_cases full : collected.stream.pending.length ≥ Stream.bufferSize
      · obtain ⟨after, ran, reached, descriptor, elsewhere⟩ := flush_yields gathered
        refine ⟨after, ?_, reached, descriptor, elsewhere⟩
        rw [Effect.get_bind_run, buffered]
        change (if collected.stream.pending.length ≥ Stream.bufferSize then flush else pure ())
          collected = _
        rw [if_pos full, ran]
      · refine ⟨collected, ?_, gathered, rfl, fun other _ => Host.SameAt.refl other _⟩
        rw [Effect.get_bind_run, buffered]
        change (if collected.stream.pending.length ≥ Stream.bufferSize then flush else pure ())
          collected = _
        rw [if_neg full, Effect.pure_run]
  | false =>
      have nothing := shows.direct buffered
      have place : file.tell = offset := by
        obtain ⟨unfetched, unpushed⟩ := shows.input (by simp [outward])
        simpa [Stream.aheadCount, unfetched, unpushed, nothing] using shows.tell_eq
      obtain ⟨after, ran, held, elsewhere⟩ := Host.write_regular holds bytes (by omega)
      refine ⟨{ channel with host := after }, ?_,
        ⟨_, _, held, shows.written outward buffered inside⟩, rfl, elsewhere⟩
      rw [Effect.get_bind_run, buffered]
      exact request_run (fun host descriptor => host.write descriptor bytes) channel ran

theorem readBytes_yields (mirrors : channel.Mirrors node file) (reading : file.direction = .read)
    (count : Nat) : (readBytes count).Yields channel node (file.take count).1 (file.take count).2 := by
  induction count generalizing channel file with
  | zero =>
      rw [PlainFile.take_zero]
      exact Yields.pure mirrors []
  | succ count ih =>
      apply (readByte_yields mirrors reading).bind
      intro after reached
      cases left : file.remaining with
      | nil =>
          rw [PlainFile.next_of_nil left] at reached ⊢
          rw [PlainFile.take_succ_of_nil left]
          exact Yields.pure reached []
      | cons byte rest =>
          rw [PlainFile.next_of_cons left] at reached ⊢
          rw [PlainFile.take_succ_of_cons left]
          exact (ih reached reading).bind fun last final => Yields.pure final _

theorem skip_yields (mirrors : channel.Mirrors node file) (reading : file.direction = .read)
    (count : Nat) : (skip count).Yields channel node () (file.take count).2 := by
  induction count generalizing channel file with
  | zero =>
      rw [PlainFile.take_zero]
      exact Yields.pure mirrors ()
  | succ count ih =>
      apply (readByte_yields mirrors reading).bind
      intro after reached
      cases left : file.remaining with
      | nil =>
          rw [PlainFile.next_of_nil left] at reached ⊢
          rw [PlainFile.take_succ_of_nil left]
          exact Yields.pure reached ()
      | cons byte rest =>
          rw [PlainFile.next_of_cons left] at reached ⊢
          rw [PlainFile.take_succ_of_cons left]
          exact ih reached reading

end Transfer

end Calculator
