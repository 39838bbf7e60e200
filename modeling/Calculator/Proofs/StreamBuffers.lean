import Calculator.Proofs.FileTableRun

/-!
# What waits in the buffers of a stream

Output waits in a stream only while the last transfer was a write, and input only while it was a read;
no buffer is ever full. Whichever way a transfer ends, it leaves a stream so.
-/

namespace Calculator

/-- The direction of a stream tells what waits in it, and no buffer is full. -/
structure Stream.Tidy (stream : Stream) : Prop where
  output : stream.pending ≠ [] → stream.direction = .write
  input : stream.direction ≠ .read → stream.ahead = [] ∧ stream.pushback = []
  fetched : stream.ahead.length < Stream.bufferSize
  collected : stream.pending.length < Stream.bufferSize

namespace Stream

variable {stream : Stream}

theorem bufferSize_pos : 0 < bufferSize := by decide

theorem new_tidy (descriptor : DescriptorId) (buffered : Bool) : (new descriptor buffered).Tidy where
  output := absurd rfl
  input := fun _ => ⟨rfl, rfl⟩
  fetched := bufferSize_pos
  collected := bufferSize_pos

def Idle (stream : Stream) : Prop :=
  stream.pending = [] ∧ stream.ahead = [] ∧ stream.pushback = []

namespace Tidy

theorem nothing_pending (tidy : stream.Tidy) (elsewhere : stream.direction ≠ .write) :
    stream.pending = [] := by
  apply Decidable.byContradiction
  intro waiting
  exact elsewhere (tidy.output waiting)

theorem marked (tidy : stream.Tidy) (eof failed : Bool) : ({ stream with eof, failed } : Stream).Tidy :=
  ⟨tidy.output, tidy.input, tidy.fetched, tidy.collected⟩

theorem flushed (tidy : stream.Tidy) : ({ stream with pending := [] } : Stream).Tidy where
  output := absurd rfl
  input := tidy.input
  fetched := tidy.fetched
  collected := bufferSize_pos

theorem emptied (tidy : stream.Tidy) :
    ({ stream with ahead := [], pushback := [] } : Stream).Tidy where
  output := tidy.output
  input := fun _ => ⟨rfl, rfl⟩
  fetched := bufferSize_pos
  collected := tidy.collected

theorem filled (tidy : stream.Tidy) (reading : stream.direction = .read) {ahead : Bytes}
    (pushback : Bytes) (short : ahead.length < bufferSize) :
    ({ stream with ahead, pushback } : Stream).Tidy where
  output := tidy.output
  input := absurd reading
  fetched := short
  collected := tidy.collected

theorem gathered (tidy : stream.Tidy) (writing : stream.direction = .write) {pending : Bytes}
    (short : pending.length < bufferSize) : ({ stream with pending } : Stream).Tidy where
  output := fun _ => writing
  input := tidy.input
  fetched := tidy.fetched
  collected := short

/-- A stream may turn where what waits in it allows the new direction. -/
theorem turned (tidy : stream.Tidy) {direction : Direction}
    (output : stream.pending ≠ [] → direction = .write)
    (input : direction ≠ .read → stream.ahead = [] ∧ stream.pushback = []) :
    ({ stream with direction } : Stream).Tidy :=
  ⟨output, input, tidy.fetched, tidy.collected⟩

end Tidy

end Stream

theorem Host.read_length {host after : Host} {id : DescriptorId} {count : Nat} {bytes : Bytes}
    (answered : host.read id count = (.ok bytes, after)) : bytes.length ≤ count := by
  unfold read at answered
  split at answered <;> cases answered
  · rw [Content.read_eq]
    exact List.length_take_le _ _
  · exact List.length_take_le _ _
  · exact Nat.le_of_eq (Bytes.zeros_length _)
  · exact Nat.zero_le _

namespace Transfer

open Effect (Ensures)

def Heads (allowed : Direction → Prop) (channel : Channel) : Prop :=
  channel.stream.Tidy ∧ allowed channel.stream.direction

def Rests (channel : Channel) : Prop :=
  channel.stream.Tidy

/-- Whatever is answered, the transfer leaves a tidy stream, and keeps its direction an allowed one
where it succeeds. -/
def Keeps {α : Type} (allowed : Direction → Prop) (transfer : Transfer α) : Prop :=
  Ensures (Heads allowed) Rests transfer fun _ => Heads allowed

abbrev Inward : Direction → Prop := (· = .read)

abbrev Outward : Direction → Prop := (· = .write)

abbrev Anyway : Direction → Prop := fun _ => True

section Keeps

variable {α β : Type} {allowed : Direction → Prop}

theorem Keeps.pure (result : α) : Keeps allowed (Pure.pure result) :=
  Ensures.pure (fun _ heads => heads.1) fun _ heads => heads

theorem Keeps.bind {transfer : Transfer α} {next : α → Transfer β} (first : Keeps allowed transfer)
    (continued : ∀ result, Keeps allowed (next result)) : Keeps allowed (transfer >>= next) :=
  Ensures.bind first continued

theorem Keeps.get_bind {next : Channel → Transfer α} (continued : ∀ channel, Keeps allowed (next channel)) :
    Keeps allowed ((MonadState.get : Transfer Channel) >>= next) :=
  fun channel heads => continued channel channel heads

theorem modifyStream_ensures {change : Stream → Stream} {first : Channel → Prop}
    {reached : Channel → Prop}
    (tidy : ∀ channel, first channel → (change channel.stream).Tidy)
    (holds : ∀ channel, first channel → reached { channel with stream := change channel.stream }) :
    Ensures first Rests (modifyStream change) fun _ => reached := by
  intro channel begun
  exact ⟨tidy channel begun, fun _ _ => holds channel begun⟩

/-- The host changes nothing of the stream but the mark of a failure. -/
theorem request_ensures {run : Host → DescriptorId → Except Fault α × Host} {first : Channel → Prop}
    {promised : α → Prop} (tidy : ∀ channel, first channel → channel.stream.Tidy)
    (unhosted : ∀ channel host, first channel → first { channel with host })
    (answers : ∀ host id result after, run host id = (.ok result, after) → promised result) :
    Ensures first Rests (request run) fun result channel => promised result ∧ first channel := by
  intro channel begun
  unfold request
  rcases asked : run channel.host channel.stream.descriptor with ⟨answer, host⟩
  cases answer with
  | error fault =>
      refine ⟨(tidy channel begun).marked _ true, ?_⟩
      intro result same
      cases same
  | ok result =>
      refine ⟨tidy channel begun, ?_⟩
      intro answer same
      cases same
      exact ⟨answers _ _ _ _ asked, unhosted channel host begun⟩

theorem request_leaves (run : Host → DescriptorId → Except Fault α × Host) {first : Channel → Prop}
    (tidy : ∀ channel, first channel → channel.stream.Tidy)
    (unhosted : ∀ channel host, first channel → first { channel with host }) :
    Ensures first Rests (request run) fun _ => first := by
  have answers : ∀ host id result after, run host id = (.ok result, after) → True :=
    fun _ _ _ _ _ => trivial
  exact (request_ensures tidy unhosted answers).weaken (fun _ begun => begun)
    fun _ _ reached => reached.2

theorem request_keeps (run : Host → DescriptorId → Except Fault α × Host) :
    Keeps allowed (request run) :=
  request_leaves run (fun _ heads => heads.1) fun _ _ heads => heads

theorem flush_ensures :
    Ensures (Heads allowed) Rests flush fun _ channel =>
      Heads allowed channel ∧ channel.stream.pending = [] := by
  unfold flush
  refine Ensures.get_bind fun begun heads => ?_
  have emptied : Ensures (fun channel => channel = begun) Rests
      (modifyStream fun stream => { stream with pending := [] })
      fun _ channel => Heads allowed channel ∧ channel.stream.pending = [] :=
    modifyStream_ensures (by rintro _ rfl; exact heads.1.flushed)
      (by rintro _ rfl; exact ⟨⟨heads.1.flushed, heads.2⟩, rfl⟩)
  exact emptied.bind fun _ =>
    request_leaves _ (fun _ reached => reached.1.1) fun _ _ reached => reached

theorem flush_keeps : Keeps allowed flush :=
  flush_ensures.weaken (fun _ heads => heads) fun _ _ reached => reached.1

theorem seek_ensures (target : Nat) :
    Ensures (Heads allowed) Rests (seek target) fun _ channel =>
      Heads allowed channel ∧ channel.stream.Idle := by
  unfold seek
  refine flush_ensures.bind fun _ => ?_
  have emptied : Ensures (fun channel => Heads allowed channel ∧ channel.stream.pending = []) Rests
      (modifyStream fun stream => { stream with ahead := [], pushback := [], eof := false })
      fun _ channel => Heads allowed channel ∧ channel.stream.Idle :=
    modifyStream_ensures (fun _ flushed => flushed.1.1.emptied.marked _ _)
      fun _ flushed => ⟨⟨flushed.1.1.emptied.marked _ _, flushed.1.2⟩, flushed.2, rfl, rfl⟩
  exact emptied.bind fun _ =>
    request_leaves _ (fun _ reached => reached.1.1) fun _ _ reached => reached

theorem seek_keeps (target : Nat) : Keeps allowed (seek target) :=
  (seek_ensures target).weaken (fun _ heads => heads) fun _ _ reached => reached.1

/-- A stream that holds nothing turns to any direction. -/
theorem turn_idle {flags : Stream → Stream}
    (free : ∀ stream : Stream, stream.Tidy → stream.Idle →
      (flags stream).Tidy) :
    Ensures (fun channel => Heads allowed channel ∧ channel.stream.Idle) Rests (modifyStream flags)
      fun _ => Heads Anyway :=
  modifyStream_ensures (fun _ still => free _ still.1.1 still.2)
    fun _ still => ⟨free _ still.1.1 still.2, trivial⟩

theorem reposition_keeps (target : Nat) : Keeps Anyway (reposition target) := by
  refine (seek_ensures target).bind fun _ => turn_idle fun stream tidy idle => ?_
  exact tidy.turned (absurd idle.1) fun _ => idle.2

theorem rewind_keeps : Keeps Anyway rewind := by
  refine (seek_ensures 0).bind fun _ => turn_idle fun stream tidy idle => ?_
  have free : ({ stream with direction := .none } : Stream).Tidy :=
    tidy.turned (absurd idle.1) fun _ => idle.2
  exact free.marked _ _

theorem position_keeps : Keeps allowed position := by
  intro channel heads
  unfold position
  split
  · refine ⟨heads.1, ?_⟩
    intro result same
    cases same
  · exact ⟨heads.1, fun _ _ => heads⟩

theorem size_keeps : Keeps allowed size :=
  flush_keeps.bind fun _ _ heads => ⟨heads.1, fun _ _ => heads⟩

theorem available_keeps : Keeps allowed available :=
  fun _ heads => ⟨heads.1, fun _ _ => heads⟩

theorem prepareRead_ensures :
    Ensures (Heads Anyway) Rests prepareRead fun _ => Heads Inward := by
  unfold prepareRead
  refine Ensures.get_bind fun begun heads => ?_
  have turned {channel : Channel} (tidy : channel.stream.Tidy) (written : channel.stream.pending = []) :
      ({ channel.stream with direction := .read } : Stream).Tidy :=
    tidy.turned (absurd written) (absurd rfl)
  have turns : Ensures (fun channel => Heads Anyway channel ∧ channel.stream.pending = []) Rests
      (modifyStream fun stream => { stream with direction := .read }) fun _ => Heads Inward :=
    modifyStream_ensures (fun _ still => turned still.1.1 still.2)
      fun _ still => ⟨turned still.1.1 still.2, rfl⟩
  by_cases outward : begun.stream.direction = .write
  · rw [outward]
    exact (flush_ensures.weaken (fun _ same => same ▸ heads) fun _ _ flushed => flushed).bind
      fun _ => turns
  · rw [beq_eq_false_iff_ne.mpr outward]
    exact turns.weaken (fun _ same => same ▸ ⟨heads, heads.1.nothing_pending outward⟩)
      fun _ _ reached => reached

theorem discardAhead_ensures :
    Ensures (Heads Inward) Rests discardAhead fun _ channel =>
      Rests channel ∧ channel.stream.ahead = [] ∧ channel.stream.pushback = [] := by
  unfold discardAhead
  refine Ensures.get_bind fun begun heads => ?_
  have emptied : Ensures (fun channel => channel = begun) Rests forgetAhead fun _ channel =>
      Rests channel ∧ channel.stream.ahead = [] ∧ channel.stream.pushback = [] :=
    modifyStream_ensures (by rintro _ rfl; exact heads.1.emptied)
      (by rintro _ rfl; exact ⟨heads.1.emptied, rfl, rfl⟩)
  refine emptied.bind fun _ => ?_
  split
  · exact request_leaves _ (fun _ reached => reached.1) fun _ _ reached => reached
  · exact Ensures.pure (fun _ reached => reached.1) fun _ reached => reached

theorem prepareWrite_ensures :
    Ensures (Heads Anyway) Rests prepareWrite fun _ => Heads Outward := by
  unfold prepareWrite
  refine Ensures.get_bind fun begun heads => ?_
  have turned {channel : Channel} (tidy : channel.stream.Tidy)
      (nothing : channel.stream.ahead = [] ∧ channel.stream.pushback = []) :
      ({ channel.stream with direction := .write } : Stream).Tidy :=
    tidy.turned (fun _ => rfl) fun _ => nothing
  have turns : Ensures (fun channel =>
        Rests channel ∧ channel.stream.ahead = [] ∧ channel.stream.pushback = []) Rests
      (modifyStream fun stream => { stream with direction := .write }) fun _ => Heads Outward :=
    modifyStream_ensures (fun _ still => turned still.1 still.2)
      fun _ still => ⟨turned still.1 still.2, rfl⟩
  by_cases inward : begun.stream.direction = .read
  · rw [inward]
    exact (discardAhead_ensures.weaken (by rintro _ rfl; exact ⟨heads.1, inward⟩)
      fun _ _ dropped => dropped).bind fun _ => turns
  · rw [beq_eq_false_iff_ne.mpr inward]
    exact turns.weaken (fun _ same => same ▸ ⟨heads.1, heads.1.input inward⟩)
      fun _ _ reached => reached

theorem readByte_keeps : Keeps Inward readByte := by
  unfold readByte
  refine Ensures.get_bind fun begun heads => ?_
  have took {change : Stream → Stream} {byte : UInt8} (direction : (change begun.stream).direction = .read)
      (tidy : (change begun.stream).Tidy) :
      Ensures (fun channel => channel = begun) Rests
        (do modifyStream change; return some byte : Transfer (Option UInt8)) fun _ => Heads Inward :=
    (modifyStream_ensures (by rintro _ rfl; exact tidy) (by rintro _ rfl; exact ⟨tidy, direction⟩)).bind
      fun _ => Keeps.pure _
  dsimp only
  split
  · rename_i byte rest pushed
    exact took heads.2 (heads.1.filled heads.2 rest heads.1.fetched)
  · rename_i byte rest pushed fetched
    have short : rest.length < Stream.bufferSize := by
      have length := heads.1.fetched
      rw [fetched, List.length_cons] at length
      omega
    exact took heads.2 (heads.1.filled heads.2 begun.stream.pushback short)
  · have read : Ensures (Heads Inward) Rests
        (request fun host descriptor => host.read descriptor Stream.bufferSize)
        fun bytes channel => bytes.length ≤ Stream.bufferSize ∧ Heads Inward channel :=
      request_ensures (fun _ heads => heads.1) (fun _ _ heads => heads) fun _ _ _ _ => Host.read_length
    refine (read.weaken (by rintro _ rfl; exact heads) fun _ _ reached => reached).bind fun bytes => ?_
    split
    · refine (modifyStream_ensures (fun _ reached => ?_) fun _ reached => ?_).bind fun _ => Keeps.pure _
      · exact reached.2.1.marked true _
      · exact ⟨reached.2.1.marked true _, reached.2.2⟩
    · rename_i byte rest
      have tidy (channel : Channel)
          (reached : (byte :: rest).length ≤ Stream.bufferSize ∧ Heads Inward channel) :
          ({ channel.stream with ahead := rest } : Stream).Tidy :=
        reached.2.1.filled reached.2.2 channel.stream.pushback reached.1
      exact (modifyStream_ensures tidy fun channel reached => ⟨tidy channel reached, reached.2.2⟩).bind
        fun _ => Keeps.pure _

theorem unread_keeps (byte : UInt8) : Keeps Inward (unread byte) :=
  have tidy (channel : Channel) (heads : Heads Inward channel) :=
    (heads.1.filled heads.2 (byte :: channel.stream.pushback) heads.1.fetched).marked false
      channel.stream.failed
  modifyStream_ensures tidy fun channel heads => ⟨tidy channel heads, heads.2⟩

theorem flush_eq (channel : Channel) :
    flush channel = request (fun host descriptor => host.write descriptor channel.stream.pending)
      { channel with stream := { channel.stream with pending := [] } } := rfl

theorem flush_taken (channel : Channel)
    (taken : (channel.host.write channel.stream.descriptor channel.stream.pending).1 = .ok ()) :
    flush channel = (.ok (), {
      stream := { channel.stream with pending := [] }
      host := (channel.host.write channel.stream.descriptor channel.stream.pending).2 }) := by
  rw [flush_eq, request]
  rcases asked : channel.host.write channel.stream.descriptor channel.stream.pending with ⟨answer, host⟩
  rw [asked] at taken
  cases taken
  rfl

theorem flush_refused (channel : Channel) {fault : Fault}
    (refused : (channel.host.write channel.stream.descriptor channel.stream.pending).1 = .error fault) :
    flush channel = (.error fault, {
      stream := { channel.stream with pending := [], failed := true }
      host := (channel.host.write channel.stream.descriptor channel.stream.pending).2 }) := by
  rw [flush_eq, request]
  rcases asked : channel.host.write channel.stream.descriptor channel.stream.pending with ⟨answer, host⟩
  rw [asked] at refused
  cases refused
  rfl

theorem discardAhead_eq (channel : Channel) :
    discardAhead channel
      = (let forgotten : Channel :=
          { channel with stream := { channel.stream with ahead := [], pushback := [] } }
        if channel.stream.aheadCount > 0 then
          request (fun host descriptor => host.seekBack descriptor channel.stream.aheadCount) forgotten
        else (.ok (), forgotten)) := by
  unfold discardAhead
  rw [Effect.get_bind_run]
  dsimp only
  split <;> rfl

theorem writeAll_buffered {channel : Channel} (buffered : channel.stream.buffered = true)
    (bytes : Bytes) :
    writeAll bytes channel =
      (let collected : Channel :=
        { channel with stream := { channel.stream with pending := channel.stream.pending ++ bytes } }
      if Stream.bufferSize ≤ collected.stream.pending.length then flush collected
      else (.ok (), collected)) := by
  unfold writeAll
  rw [Effect.get_bind_run, buffered]
  by_cases full : Stream.bufferSize ≤ (channel.stream.pending ++ bytes).length
  · simp only [if_pos full]
    change (if (channel.stream.pending ++ bytes).length ≥ Stream.bufferSize then flush else pure ()) _ = _
    rw [if_pos full]
  · simp only [if_neg full]
    change (if (channel.stream.pending ++ bytes).length ≥ Stream.bufferSize then flush else pure ()) _ = _
    rw [if_neg full]
    rfl

theorem writeAll_unbuffered {channel : Channel} (unbuffered : channel.stream.buffered = false)
    (bytes : Bytes) :
    writeAll bytes channel = request (fun host descriptor => host.write descriptor bytes) channel := by
  unfold writeAll
  rw [Effect.get_bind_run, unbuffered]
  rfl

theorem writeAll_keeps (bytes : Bytes) : Keeps Outward (writeAll bytes) := by
  intro channel heads
  cases buffered : channel.stream.buffered with
  | false =>
      rw [writeAll_unbuffered buffered]
      exact request_keeps _ channel heads
  | true =>
      rw [writeAll_buffered buffered]
      dsimp only
      split
      · -- The buffer is emptied before the host sees its bytes, so that it is never seen full.
        rw [flush_eq]
        exact request_keeps _ _ ⟨(heads.1.gathered heads.2 Stream.bufferSize_pos), heads.2⟩
      · rename_i room
        have tidy := heads.1.gathered heads.2 (Nat.lt_of_not_le room)
        exact ⟨tidy, fun _ _ => ⟨tidy, heads.2⟩⟩

theorem readBytes_keeps (count : Nat) : Keeps Inward (readBytes count) := by
  induction count with
  | zero => exact Keeps.pure []
  | succ count ih =>
      refine readByte_keeps.bind fun byte => ?_
      split
      · exact Keeps.pure []
      · exact ih.bind fun _ => Keeps.pure _

theorem skip_keeps (count : Nat) : Keeps Inward (skip count) := by
  induction count with
  | zero => exact Keeps.pure ()
  | succ count ih =>
      refine readByte_keeps.bind fun byte => ?_
      split
      · exact Keeps.pure ()
      · exact ih

theorem skipBlanks_keeps (fuel : Nat) : Keeps Inward (skipBlanks fuel) := by
  induction fuel with
  | zero => exact Keeps.pure ()
  | succ fuel ih =>
      refine readByte_keeps.bind fun byte => ?_
      split
      · exact Keeps.pure ()
      · split
        · exact ih
        · exact unread_keeps _

theorem readPiece_keeps (options : ReadOptions) (room : Nat) : Keeps Inward (readPiece options room) := by
  induction room with
  | zero => exact Keeps.pure _
  | succ room ih =>
      refine readByte_keeps.bind fun byte => ?_
      split
      · exact Keeps.pure _
      · split
        · exact Keeps.pure _
        · exact ih.bind fun _ => Keeps.pure _

theorem readPieces_keeps (options : ReadOptions) (chunk fuel : Nat) :
    Keeps Inward (readPieces options chunk fuel) := by
  induction fuel with
  | zero => exact Keeps.pure _
  | succ fuel ih =>
      refine (readPiece_keeps options chunk).bind fun gathered => ?_
      obtain ⟨piece, ending⟩ := gathered
      cases ending with
      | full => exact ih.bind fun _ => Keeps.pure _
      | stopped byte => exact Keeps.pure _
      | atEof => exact Keeps.pure _

end Keeps

def Tidies {α : Type} (transfer : Transfer α) : Prop :=
  ∀ channel : Channel, channel.stream.Tidy → (transfer channel).2.stream.Tidy

variable {α β : Type}

theorem Keeps.tidies {transfer : Transfer α} (keeps : Keeps Anyway transfer) : transfer.Tidies :=
  fun channel tidy => (keeps channel ⟨tidy, trivial⟩).1

theorem tidies_of_turn {prepare : Transfer Unit} {next : Unit → Transfer α} {allowed : Direction → Prop}
    (turned : Ensures (Heads Anyway) Rests prepare fun _ => Heads allowed)
    (keeps : Keeps allowed (next ())) : (prepare >>= next).Tidies :=
  fun channel tidy => (turned.bind fun _ => keeps) channel ⟨tidy, trivial⟩ |>.1

/-- What reading a text does once the stream is turned and the white space before it is skipped. -/
def gather (options : ReadOptions) (chunk : Nat) : Transfer (Option Bytes) := do
  let (text, stop) ← readPieces options chunk ((← available) + 1)
  match stop with
  | none => return if text.isEmpty then none else some text
  | some byte => return some (if options.strip then text else text ++ [byte])

theorem readText_eq (options : ReadOptions) (chunk : Nat) :
    readText options chunk = (do
      prepareRead
      if options.stopBlank then skipBlanks ((← available) + 1)
      gather options chunk) := rfl

theorem gather_keeps (options : ReadOptions) (chunk : Nat) : Keeps Inward (gather options chunk) := by
  refine available_keeps.bind fun left => (readPieces_keeps options chunk _).bind fun gathered => ?_
  obtain ⟨text, stop⟩ := gathered
  cases stop with
  | none => exact Keeps.pure _
  | some byte => exact Keeps.pure _

theorem readText_tidies (options : ReadOptions) (chunk : Nat) : (readText options chunk).Tidies := by
  rw [readText_eq]
  refine tidies_of_turn prepareRead_ensures ?_
  dsimp only
  split
  · exact available_keeps.bind fun left => (skipBlanks_keeps _).bind fun _ => gather_keeps options chunk
  · exact gather_keeps options chunk

theorem search_tidies (needle : Bytes) (start finish : Nat) : (search needle start finish).Tidies := by
  refine tidies_of_turn prepareRead_ensures ((seek_keeps start).bind fun _ => ?_)
  split
  · exact Keeps.pure _
  · refine Keeps.get_bind fun channel => ?_
    split
    · exact (skip_keeps _).bind fun _ => Keeps.pure _
    · exact (skip_keeps _).bind fun _ => Keeps.pure _

theorem probe_keeps (needle : Bytes) (position : Nat) : Keeps Inward (probe needle position) :=
  (seek_keeps position).bind fun _ => skip_keeps needle.length

theorem searchBack_tidies (needle : Bytes) (first last : Nat) :
    (searchBack needle first last).Tidies := by
  refine tidies_of_turn prepareRead_ensures ?_
  split
  · exact (seek_keeps first).bind fun _ => Keeps.pure _
  · split
    · exact (seek_keeps last).bind fun _ => Keeps.pure _
    · refine (probe_keeps needle first).bind fun _ => Keeps.get_bind fun channel => ?_
      split
      · exact (probe_keeps needle _).bind fun _ => Keeps.pure _
      · exact (seek_keeps last).bind fun _ => Keeps.pure _

end Transfer

end Calculator
