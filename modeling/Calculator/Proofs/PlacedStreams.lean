import Calculator.Proofs.Occurrence
import Calculator.Proofs.PacedTexts

/-!
# Streams that are moved and read

A stream on a regular file that has no output waiting is moved to a place and read from there, also where
it appends. What is fetched on the way is forgotten by the next move, so the place and the bytes of the
file tell all that is read, and nothing but the place is left of it.
-/

namespace Calculator

namespace Host

variable {host : Host} {id : DescriptorId} {descriptor : Descriptor} {content : Content}

theorem setOffset_setOffset (host : Host) (id : DescriptorId) (first second : Nat) :
    (host.setOffset id first).setOffset id second = host.setOffset id second := by
  simp only [setOffset, List.modify_modify_eq, Function.comp_def]

theorem read_file (opened : host.open? id = some (descriptor, .file content)) (count : Nat) :
    host.read id count
      = (.ok ((content.toBytes.drop descriptor.offset).take count),
        host.setOffset id
          (descriptor.offset + ((content.toBytes.drop descriptor.offset).take count).length)) := by
  simp only [read, opened, Content.read_eq]

theorem peek_file (opened : host.open? id = some (descriptor, .file content)) (start count : Nat) :
    host.peek id start count = (content.toBytes.drop start).take count := by
  simp only [peek, opened, Content.read_eq]

end Host

namespace Channel

variable {channel origin : Channel} {descriptor : Descriptor} {content : Content} {place : Nat}

def turned (channel : Channel) : Channel :=
  { channel with stream := { channel.stream with direction := .read } }

def moved (channel : Channel) (target : Nat) : Channel where
  stream := { channel.stream with ahead := [], pushback := [], eof := false }
  host := channel.host.setOffset channel.stream.descriptor target

theorem moved_moved (channel : Channel) (first second : Nat) :
    (channel.moved first).moved second = channel.moved second := by
  simp only [moved, Host.setOffset_setOffset]

/-- Reading has led `origin` to a place of its file. What was fetched is what follows there, no output
waits, and a move leads from here where it leads from `origin`. -/
structure Placed (channel origin : Channel) (descriptor : Descriptor) (content : Content)
    (place : Nat) : Prop where
  kept : ∀ target, channel.moved target = origin.moved target
  opened : channel.host.open? channel.stream.descriptor
    = some ({ descriptor with offset := place + channel.stream.ahead.length }, .file content)
  fetched : channel.stream.ahead <+: content.toBytes.drop place
  pushed : channel.stream.pushback = []
  written : channel.stream.pending = []

theorem Placed.nodes_eq (placed : channel.Placed origin descriptor content place) :
    channel.host.nodes = origin.host.nodes := by
  have same := congrArg (fun moved : Channel => moved.host.nodes) (placed.kept 0)
  exact same

theorem Placed.counted (placed : channel.Placed origin descriptor content place) :
    place + channel.stream.ahead.length + channel.stream.pending.length
      - channel.stream.aheadCount = place := by
  rw [Stream.aheadCount, placed.written, placed.pushed]
  simp

theorem Placed.move (placed : channel.Placed origin descriptor content place) (target : Nat) :
    (channel.moved target).Placed origin descriptor content target where
  kept := fun next => (channel.moved_moved target next).trans (placed.kept next)
  opened := Host.setOffset_open? placed.opened target
  fetched := List.nil_prefix
  pushed := rfl
  written := placed.written

theorem Placed.fetch {after : Channel} {next : Nat} {eof : Bool}
    (placed : channel.Placed origin descriptor content place)
    (stream : after.stream = { channel.stream with ahead := after.stream.ahead, eof })
    (host : after.host
      = channel.host.setOffset channel.stream.descriptor (next + after.stream.ahead.length))
    (follows : after.stream.ahead <+: content.toBytes.drop next) :
    after.Placed origin descriptor content next where
  kept := by
    intro target
    rw [← placed.kept target, moved, moved, host, stream, Host.setOffset_setOffset]
  opened := by
    rw [host, stream]
    exact Host.setOffset_open? placed.opened _
  fetched := follows
  pushed := by
    rw [stream]
    exact placed.pushed
  written := by
    rw [stream]
    exact placed.written

theorem moved_placed
    (opened : channel.host.open? channel.stream.descriptor = some (descriptor, .file content))
    (written : channel.stream.pending = []) (target : Nat) :
    (channel.moved target).Placed channel descriptor content target where
  kept := channel.moved_moved target
  opened := Host.setOffset_open? opened target
  fetched := List.nil_prefix
  pushed := rfl
  written := written

end Channel

namespace Transfer

variable {channel origin flushed : Channel} {descriptor : Descriptor} {content : Content} {place : Nat}

section Seek

variable (opened : channel.host.open? channel.stream.descriptor = some (descriptor, .file content))
  (written : channel.stream.pending = [])

include opened written

theorem seek_inside {target : Nat} (inside : target ≤ Content.maxSize) :
    seek target channel = (.ok (), channel.moved target) := by
  unfold seek
  rw [Effect.bind_ok (flush_nothing written)]
  exact request_run (fun host descriptor => host.seek descriptor target)
    { channel with stream := { channel.stream with ahead := [], pushback := [], eof := false } }
    ((Host.seek_file opened target).trans (if_pos inside))

theorem seek_beyond {target : Nat} (beyond : Content.maxSize < target) :
    (seek target channel).1 = .error .invalidArgument := by
  unfold seek
  rw [Effect.bind_ok (flush_nothing written)]
  have asked := (Host.seek_file opened target).trans (if_neg (Nat.not_le.mpr beyond))
  obtain ⟨failed, ran⟩ := request_eq (fun host descriptor => host.seek descriptor target)
    { channel with stream := { channel.stream with ahead := [], pushback := [], eof := false } }
  exact (congrArg Prod.fst ran).trans (congrArg Prod.fst asked)

end Seek

theorem prepareRead_seek (ran : flush channel = (.ok (), flushed)) (target : Nat) :
    (do prepareRead; seek target) channel = seek target flushed.turned := by
  by_cases waits : channel.stream.pending ≠ [] → channel.stream.direction = .write
  · exact Effect.bind_ok (prepareRead_run waits ran)
  · rw [Classical.not_imp] at waits
    have turned : prepareRead channel = (.ok (), channel.turned) := by
      unfold prepareRead
      rw [Effect.get_bind_run, beq_eq_false_iff_ne.mpr waits.2]
      rfl
    rw [Effect.bind_ok turned]
    refine (seek_flushed ?_ target).symm
    rw [flush_eq] at ran ⊢
    obtain ⟨wrote, stream⟩ := request_ok ran
    rw [request, Channel.turned, Channel.turned, wrote, stream]

section Flushed

variable (ran : flush channel = (.ok (), flushed))
  (opened : flushed.turned.host.open? flushed.turned.stream.descriptor
    = some (descriptor, .file content))

include ran

theorem turned_nothing : flushed.turned.stream.pending = [] := by
  rw [Channel.turned, (flush_ok ran).2]

include opened

theorem prepareRead_inside {target : Nat} (inside : target ≤ Content.maxSize) :
    (do prepareRead; seek target) channel = (.ok (), flushed.turned.moved target) :=
  (prepareRead_seek ran target).trans (seek_inside opened (turned_nothing ran) inside)

theorem prepareRead_beyond {target : Nat} (beyond : Content.maxSize < target) :
    ((do prepareRead; seek target) channel).1 = .error .invalidArgument := by
  rw [prepareRead_seek ran target]
  exact seek_beyond opened (turned_nothing ran) beyond

theorem turned_placed (target : Nat) :
    (flushed.turned.moved target).Placed flushed.turned descriptor content target :=
  Channel.moved_placed opened (turned_nothing ran) target

end Flushed

/-- The next byte is the first one behind the place; at the end there is none. -/
theorem readByte_placed (placed : channel.Placed origin descriptor content place) :
    ∃ after, readByte channel = (.ok (content.toBytes.drop place).head?, after)
      ∧ after.Placed origin descriptor content
        (place + ((content.toBytes.drop place).take 1).length) := by
  obtain ⟨behind, fetched⟩ := placed.fetched
  have opened := placed.opened
  unfold readByte
  rw [Effect.get_bind_run]
  simp only [placed.pushed]
  cases ahead : channel.stream.ahead with
  | cons byte rest =>
      rw [ahead] at fetched opened
      rw [← fetched]
      have next : place + ((byte :: rest ++ behind).take 1).length + rest.length
          = place + (byte :: rest).length := by
        simp [Nat.add_comm, Nat.add_left_comm]
      refine ⟨_, rfl, placed.kept, ?_, ?_, placed.pushed, placed.written⟩
      · rw [next]
        exact opened
      · rw [← List.drop_drop, ← fetched]
        exact ⟨behind, rfl⟩
  | nil =>
      rw [ahead] at opened
      have read := request_run (fun host descriptor => host.read descriptor Stream.bufferSize) channel
        (Host.read_file opened Stream.bufferSize)
      simp only [List.length_nil, Nat.add_zero] at read
      dsimp only
      rw [Effect.bind_ok read]
      cases left : content.toBytes.drop place with
      | nil =>
          refine ⟨_, rfl, placed.fetch rfl ?_ ?_⟩
          · simp [ahead]
          · simp [ahead]
      | cons byte rest =>
          have follows : content.toBytes.drop (place + 1) = rest := by
            rw [← List.drop_drop, left]
            rfl
          refine ⟨_, rfl, ?_⟩
          show Channel.Placed _ _ _ _ (place + 1)
          refine placed.fetch rfl ?_ ?_
          · simp [Stream.bufferSize, Nat.add_assoc, Nat.add_comm 1]
          · rw [follows]
            exact List.take_prefix _ _

/-- Reading answers what stands behind the place, as far as the file goes. -/
theorem readBytes_placed (placed : channel.Placed origin descriptor content place) (count : Nat) :
    ∃ after, readBytes count channel = (.ok ((content.toBytes.drop place).take count), after)
      ∧ after.Placed origin descriptor content
        (place + ((content.toBytes.drop place).take count).length) := by
  induction count generalizing channel place with
  | zero => exact ⟨channel, rfl, placed⟩
  | succ count ih =>
      obtain ⟨between, ran, reached⟩ := readByte_placed placed
      unfold readBytes
      rw [Effect.bind_ok ran]
      cases left : content.toBytes.drop place with
      | nil =>
          rw [left] at reached
          exact ⟨between, rfl, reached⟩
      | cons byte rest =>
          have follows : content.toBytes.drop (place + 1) = rest := by
            rw [← List.drop_drop, left]
            rfl
          rw [left] at reached
          obtain ⟨after, read, final⟩ := ih reached
          rw [show place + ((byte :: rest).take 1).length = place + 1 from rfl, follows] at read final
          rw [Nat.add_assoc, Nat.add_comm 1] at final
          exact ⟨after, Effect.bind_ok read, final⟩

theorem skip_eq (count : Nat) : skip count = (do let _ ← readBytes count; return ()) := by
  induction count with
  | zero => rfl
  | succ count ih =>
      simp only [skip, readBytes, bind_assoc]
      congr 1
      funext byte
      cases byte with
      | none => rfl
      | some byte => 
        simp only [ih, bind_assoc, pure_bind]

theorem skip_run {count : Nat} {bytes : Bytes} {after : Channel}
    (ran : readBytes count channel = (.ok bytes, after)) : skip count channel = (.ok (), after) := by
  rw [skip_eq, Effect.bind_ok ran]
  rfl

theorem seek_placed (placed : channel.Placed origin descriptor content place) {target : Nat}
    (inside : target ≤ Content.maxSize) :
    seek target channel = (.ok (), channel.moved target) :=
  seek_inside placed.opened placed.written inside

end Transfer

end Calculator
