import Calculator.Proofs.RegularFile
import Calculator.Proofs.StreamCalls

/-!
# Where the input of a stream is kept

Fetched bytes go into the front of a storage of fixed size; one mark shows the next byte to hand out,
and another where the fetched bytes end. The calls of the stream move these marks. Whatever calls were
made, the first mark stands before or at the second, the second within the storage, and what the stream
has fetched and not handed out stands between them.
-/

namespace Calculator

/-- The storage for input, the place of the next byte and the end of what was fetched. -/
structure ReadBuffer where
  storage : Bytes
  place : Nat
  filled : Nat

namespace ReadBuffer

def empty : ReadBuffer where
  storage := Bytes.zeros Stream.bufferSize
  place := 0
  filled := 0

/-- Fetched bytes overwrite the front of the storage, and the next byte is the first of them. -/
def fetch (buffer : ReadBuffer) (bytes : Bytes) : ReadBuffer where
  storage := bytes ++ buffer.storage.drop bytes.length
  place := 0
  filled := bytes.length

def advance (buffer : ReadBuffer) : ReadBuffer :=
  { buffer with place := buffer.place + 1 }

def forget (buffer : ReadBuffer) : ReadBuffer :=
  { buffer with place := 0, filled := 0 }

def rest (buffer : ReadBuffer) : Bytes :=
  (buffer.storage.take buffer.filled).drop buffer.place

/-- What a call of the stream does to its buffer. Bytes that were pushed back come first; the storage
is filled again when its marks meet. Going to a place drops the input once the output is written. -/
def after (buffer : ReadBuffer) (call : StreamCall) (channel : Channel) : ReadBuffer :=
  match call with
  | .readByte =>
      if channel.stream.pushback ≠ [] then buffer
      else if buffer.place = buffer.filled then
        match (channel.host.read channel.stream.descriptor Stream.bufferSize).1 with
        | .ok [] | .error _ => buffer
        | .ok bytes => (buffer.fetch bytes).advance
      else buffer.advance
  | .discardAhead => buffer.forget
  | .seek _ =>
      match (Transfer.flush channel).1 with
      | .ok _ => buffer.forget
      | .error _ => buffer
  | .unread _ | .writeAll _ | .flush | .clearMarks | .turn _ => buffer

/-- The buffer of a stream is as the calls on the stream left it, since the stream was opened. The host
may change between the calls. -/
inductive Follows : ReadBuffer → Stream → Prop
  | opened (descriptor : DescriptorId) (buffered : Bool) : Follows empty (Stream.new descriptor buffered)
  | called {buffer : ReadBuffer} {stream : Stream} (follows : Follows buffer stream) (host : Host)
      (call : StreamCall) :
      Follows (buffer.after call { stream, host }) (call.after { stream, host }).stream

/-- The marks stand in order within the storage, and the input of the stream stands between them. -/
structure Backs (buffer : ReadBuffer) (stream : Stream) : Prop where
  sized : buffer.storage.length = Stream.bufferSize
  ordered : buffer.place ≤ buffer.filled
  inside : buffer.filled ≤ Stream.bufferSize
  ahead : stream.ahead = buffer.rest

variable {buffer : ReadBuffer} {stream : Stream} {channel : Channel}

theorem Backs.rest_length (backs : buffer.Backs stream) :
    buffer.rest.length = buffer.filled - buffer.place := by
  rw [rest, List.length_drop, List.length_take, backs.sized, Nat.min_eq_left backs.inside]

theorem Backs.met_iff (backs : buffer.Backs stream) :
    buffer.place = buffer.filled ↔ stream.ahead = [] := by
  have ordered := backs.ordered
  rw [backs.ahead, List.eq_nil_iff_length_eq_zero, backs.rest_length]
  omega

theorem Backs.same (backs : buffer.Backs stream) {other : Stream} (kept : other.ahead = stream.ahead) :
    buffer.Backs other :=
  ⟨backs.sized, backs.ordered, backs.inside, kept.trans backs.ahead⟩

theorem Backs.advance (backs : buffer.Backs stream) {byte : UInt8} {bytes : Bytes}
    (next : stream.ahead = byte :: bytes) {other : Stream} (handed : other.ahead = bytes) :
    buffer.advance.Backs other := by
  have apart : buffer.place ≠ buffer.filled := by
    intro met
    rw [backs.met_iff.mp met] at next
    cases next
  refine ⟨backs.sized, Nat.lt_of_le_of_ne backs.ordered apart, backs.inside, ?_⟩
  have shifted : buffer.advance.rest = buffer.rest.drop 1 := by
    rw [rest, rest, List.drop_drop]
    rfl
  rw [shifted, ← backs.ahead, next, handed]
  rfl

theorem Backs.forget (backs : buffer.Backs stream) {other : Stream} (dropped : other.ahead = []) :
    buffer.forget.Backs other :=
  ⟨backs.sized, Nat.le_refl _, Nat.zero_le _, dropped⟩

theorem Backs.fetch (backs : buffer.Backs stream) {bytes : Bytes}
    (short : bytes.length ≤ Stream.bufferSize) {other : Stream} (fetched : other.ahead = bytes) :
    (buffer.fetch bytes).Backs other := by
  refine ⟨?_, Nat.zero_le _, short, ?_⟩
  · rw [ReadBuffer.fetch, List.length_append, List.length_drop, backs.sized]
    exact Nat.add_sub_cancel' short
  · rw [fetched, rest, ReadBuffer.fetch]
    simp

theorem request_ahead {α : Type} (run : Host → DescriptorId → Except Fault α × Host)
    (channel : Channel) : (Transfer.request run channel).2.stream.ahead = channel.stream.ahead := by
  obtain ⟨failed, ran⟩ := Transfer.request_eq run channel
  rw [ran]

theorem flush_ahead (channel : Channel) :
    (Transfer.flush channel).2.stream.ahead = channel.stream.ahead := by
  rw [Transfer.flush_eq, request_ahead]

theorem writeAll_ahead (bytes : Bytes) (channel : Channel) :
    (Transfer.writeAll bytes channel).2.stream.ahead = channel.stream.ahead := by
  cases buffered : channel.stream.buffered with
  | true =>
      rw [Transfer.writeAll_buffered buffered]
      dsimp only
      split
      · rw [flush_ahead]
      · rfl
  | false => rw [Transfer.writeAll_unbuffered buffered, request_ahead]

theorem discardAhead_ahead (channel : Channel) :
    (Transfer.discardAhead channel).2.stream.ahead = [] := by
  rw [Transfer.discardAhead_eq]
  dsimp only
  split
  · rw [request_ahead]
  · rfl

/-- The input that a call of `readByte` leaves. -/
theorem readByte_ahead (channel : Channel) :
    (StreamCall.readByte.after channel).stream.ahead
      = match channel.stream.pushback, channel.stream.ahead with
        | _ :: _, ahead => ahead
        | [], _ :: rest => rest
        | [], [] =>
            match (channel.host.read channel.stream.descriptor Stream.bufferSize).1 with
            | .ok (_ :: rest) => rest
            | .ok [] | .error _ => [] := by
  have left : StreamCall.readByte.after channel = (Transfer.readByte channel).2 :=
    Effect.bind_state Transfer.readByte (fun _ _ => rfl) channel
  rw [left, Transfer.readByte, Effect.get_bind_run]
  cases pushed : channel.stream.pushback with
  | cons byte rest => rfl
  | nil =>
      cases fetched : channel.stream.ahead with
      | cons byte rest => rfl
      | nil =>
          obtain ⟨failed, ran⟩ := Transfer.request_eq
            (fun host descriptor => host.read descriptor Stream.bufferSize) channel
          rcases asked : channel.host.read channel.stream.descriptor Stream.bufferSize
            with ⟨answer, host⟩
          rw [asked] at ran
          dsimp only
          cases answer with
          | error fault =>
              rw [Effect.bind_error ran]
              exact fetched
          | ok bytes =>
              rw [Effect.bind_ok ran]
              cases bytes with
              | nil => exact fetched
              | cons byte rest => rfl

theorem Backs.readByte (backs : buffer.Backs channel.stream) :
    (buffer.after .readByte channel).Backs (StreamCall.readByte.after channel).stream := by
  have left := readByte_ahead channel
  cases pushed : channel.stream.pushback with
  | cons byte rest =>
      have still : buffer.after .readByte channel = buffer := by
        rw [after, if_pos (by rw [pushed]; exact List.cons_ne_nil _ _)]
      rw [pushed] at left
      rw [still]
      exact backs.same left
  | nil =>
      have unpushed : ¬channel.stream.pushback ≠ [] := by
        rw [pushed]
        exact absurd rfl
      rw [pushed] at left
      cases fetched : channel.stream.ahead with
      | cons byte rest =>
          have apart : buffer.place ≠ buffer.filled := by
            intro met
            rw [backs.met_iff.mp met] at fetched
            cases fetched
          rw [fetched] at left
          rw [after, if_neg unpushed, if_neg apart]
          exact backs.advance fetched left
      | nil =>
          rw [fetched] at left
          rw [after, if_neg unpushed, if_pos (backs.met_iff.mpr fetched)]
          rcases asked : channel.host.read channel.stream.descriptor Stream.bufferSize
            with ⟨answer, host⟩
          rw [asked] at left
          cases answer with
          | error fault => exact backs.same (left.trans fetched.symm)
          | ok bytes =>
              cases bytes with
              | nil => exact backs.same (left.trans fetched.symm)
              | cons byte rest =>
                  have filled : (buffer.fetch (byte :: rest)).Backs
                      { channel.stream with ahead := byte :: rest } :=
                    backs.fetch (Host.read_length asked) rfl
                  exact filled.advance rfl left

theorem Backs.seek (backs : buffer.Backs channel.stream) (target : Nat) :
    (buffer.after (.seek target) channel).Backs ((StreamCall.seek target).after channel).stream := by
  have kept := flush_ahead channel
  rw [StreamCall.after, StreamCall.perform, Transfer.seek, after]
  rcases flushed : Transfer.flush channel with ⟨answer, between⟩
  rw [flushed] at kept
  cases answer with
  | error fault =>
      rw [Effect.bind_error flushed]
      exact backs.same kept
  | ok _ =>
      have forgets := request_ahead (fun host descriptor => host.seek descriptor target)
        { between with stream := { between.stream with ahead := [], pushback := [], eof := false } }
      rw [Effect.bind_ok flushed]
      exact backs.forget forgets

theorem Backs.after (backs : buffer.Backs channel.stream) (call : StreamCall) :
    (buffer.after call channel).Backs (call.after channel).stream := by
  cases call with
  | readByte => exact backs.readByte
  | unread byte => exact backs.same rfl
  | writeAll bytes => exact backs.same (writeAll_ahead bytes channel)
  | flush => exact backs.same (flush_ahead channel)
  | discardAhead => exact backs.forget (discardAhead_ahead channel)
  | seek target => exact backs.seek target
  | clearMarks => exact backs.same rfl
  | turn direction => exact backs.same rfl

theorem Follows.backs (follows : buffer.Follows stream) : buffer.Backs stream := by
  induction follows with
  | opened descriptor buffered =>
      exact ⟨Bytes.zeros_length _, Nat.le_refl _, Nat.zero_le _, rfl⟩
  | called _ host call ih => exact Backs.after ih call

end ReadBuffer

end Calculator
