import Calculator.Proofs.StreamBuffers

/-!
# The calls that a stream takes

A transfer reaches its stream by a few calls: it takes a byte or pushes one back, hands bytes over for
writing, flushes, drops the input, goes to a place, clears the marks or turns the stream. Whichever way
a transfer ends, its channel is as some list of such calls leaves it, and only a transfer that writes
hands bytes over.
-/

namespace Calculator

inductive StreamCall where
  | readByte
  | unread (byte : UInt8)
  | writeAll (bytes : Bytes)
  | flush
  | discardAhead
  | seek (target : Nat)
  | clearMarks
  | turn (direction : Direction)

namespace StreamCall

def perform : StreamCall → Transfer Unit
  | readByte => do let _ ← Transfer.readByte
  | unread byte => Transfer.unread byte
  | writeAll bytes => Transfer.writeAll bytes
  | flush => Transfer.flush
  | discardAhead => Transfer.discardAhead
  | seek target => Transfer.seek target
  | clearMarks => Transfer.modifyStream fun stream => { stream with eof := false, failed := false }
  | turn direction => Transfer.modifyStream fun stream => { stream with direction }

def after (call : StreamCall) (channel : Channel) : Channel :=
  (call.perform channel).2

def afterAll (calls : List StreamCall) (channel : Channel) : Channel :=
  calls.foldl (fun channel call => call.after channel) channel

def writes : StreamCall → Bool
  | writeAll _ => true
  | _ => false

end StreamCall

namespace Transfer

open Effect (Always)

variable {α β : Type} {writing : Bool}

/-- Calls lead from one channel to the other, and bytes are handed over only where writing is asked
for. -/
def Led (writing : Bool) (before after : Channel) : Prop :=
  ∃ calls : List StreamCall, (∀ call ∈ calls, call.writes = true → writing = true)
    ∧ StreamCall.afterAll calls before = after

theorem Led.refl (channel : Channel) : Led writing channel channel :=
  ⟨[], by simp, rfl⟩

theorem Led.trans (first second third : Channel) (one : Led writing first second)
    (two : Led writing second third) : Led writing first third := by
  obtain ⟨calls, allowed, rfl⟩ := one
  obtain ⟨more, granted, rfl⟩ := two
  refine ⟨calls ++ more, ?_, List.foldl_append⟩
  intro call made
  rcases List.mem_append.mp made with early | late
  · exact allowed call early
  · exact granted call late

theorem Led.single (call : StreamCall) (allowed : call.writes = true → writing = true)
    (channel : Channel) : Led writing channel (call.after channel) := by
  refine ⟨[call], ?_, rfl⟩
  intro other made
  rwa [List.mem_singleton.mp made]

def Composed {α : Type} (writing : Bool) (transfer : Transfer α) : Prop :=
  Always (Led writing) transfer

theorem Composed.pure (result : α) : Composed writing (Pure.pure result) :=
  Always.pure Led.refl result

theorem Composed.bind {transfer : Transfer α} {next : α → Transfer β}
    (first : Composed writing transfer) (continued : ∀ result, Composed writing (next result)) :
    Composed writing (transfer >>= next) :=
  Always.bind Led.trans first continued

theorem Composed.get_bind {next : Channel → Transfer α}
    (continued : ∀ channel, Composed writing (next channel)) :
    Composed writing ((MonadState.get : Transfer Channel) >>= next) :=
  Always.get_bind continued

theorem call_composed (call : StreamCall) (allowed : call.writes = true → writing = true) :
    Composed writing call.perform :=
  fun channel => Led.single call allowed channel

theorem readByte_composed : Composed writing readByte := by
  intro channel
  have same : (readByte channel).2 = StreamCall.readByte.after channel :=
    (Effect.bind_state readByte (fun _ _ => rfl) channel).symm
  rw [same]
  exact Led.single .readByte (by simp [StreamCall.writes]) channel

theorem unread_composed (byte : UInt8) : Composed writing (unread byte) :=
  call_composed (.unread byte) (by simp [StreamCall.writes])

theorem flush_composed : Composed writing flush :=
  call_composed .flush (by simp [StreamCall.writes])

theorem discardAhead_composed : Composed writing discardAhead :=
  call_composed .discardAhead (by simp [StreamCall.writes])

theorem seek_composed (target : Nat) : Composed writing (seek target) :=
  call_composed (.seek target) (by simp [StreamCall.writes])

theorem turn_composed (direction : Direction) :
    Composed writing (modifyStream fun stream => { stream with direction }) :=
  call_composed (.turn direction) (by simp [StreamCall.writes])

theorem writeAll_composed (bytes : Bytes) : Composed true (writeAll bytes) :=
  call_composed (.writeAll bytes) fun _ => rfl

theorem reposition_composed (target : Nat) : Composed writing (reposition target) :=
  (seek_composed target).bind fun _ => turn_composed .none

theorem rewind_composed : Composed writing rewind := by
  have clears : Composed writing
      (modifyStream fun stream => { stream with eof := false, failed := false }) :=
    call_composed .clearMarks (by simp [StreamCall.writes])
  have resets : Composed writing (modifyStream fun stream =>
      { stream with eof := false, failed := false, direction := .none }) :=
    clears.bind fun _ => turn_composed .none
  exact (seek_composed 0).bind fun _ => resets

theorem position_composed : Composed writing position := by
  intro channel
  unfold position
  split <;> exact Led.refl channel

theorem size_composed : Composed writing size :=
  flush_composed.bind fun _ channel => Led.refl channel

theorem available_composed : Composed writing available :=
  fun channel => Led.refl channel

theorem prepareRead_composed : Composed writing prepareRead := by
  refine Composed.get_bind fun channel => ?_
  split
  · exact flush_composed.bind fun _ => turn_composed .read
  · exact turn_composed .read

theorem prepareWrite_composed : Composed writing prepareWrite := by
  refine Composed.get_bind fun channel => ?_
  split
  · exact discardAhead_composed.bind fun _ => turn_composed .write
  · exact turn_composed .write

theorem readBytes_composed (count : Nat) : Composed writing (readBytes count) := by
  induction count with
  | zero => exact Composed.pure _
  | succ count ih =>
      refine readByte_composed.bind fun byte => ?_
      split
      · exact Composed.pure _
      · exact ih.bind fun _ => Composed.pure _

theorem skip_composed (count : Nat) : Composed writing (skip count) := by
  induction count with
  | zero => exact Composed.pure _
  | succ count ih =>
      refine readByte_composed.bind fun byte => ?_
      split
      · exact Composed.pure _
      · exact ih

theorem skipBlanks_composed (fuel : Nat) : Composed writing (skipBlanks fuel) := by
  induction fuel with
  | zero => exact Composed.pure _
  | succ fuel ih =>
      refine readByte_composed.bind fun byte => ?_
      split
      · exact Composed.pure _
      · split
        · exact ih
        · exact unread_composed _

theorem readPiece_composed (options : ReadOptions) (room : Nat) :
    Composed writing (readPiece options room) := by
  induction room with
  | zero => exact Composed.pure _
  | succ room ih =>
      refine readByte_composed.bind fun byte => ?_
      split
      · exact Composed.pure _
      · split
        · exact Composed.pure _
        · exact ih.bind fun _ => Composed.pure _

theorem readPieces_composed (options : ReadOptions) (chunk fuel : Nat) :
    Composed writing (readPieces options chunk fuel) := by
  induction fuel with
  | zero => exact Composed.pure _
  | succ fuel ih =>
      refine (readPiece_composed options chunk).bind fun gathered => ?_
      obtain ⟨piece, ending⟩ := gathered
      cases ending with
      | full => exact ih.bind fun _ => Composed.pure _
      | stopped byte => exact Composed.pure _
      | atEof => exact Composed.pure _

theorem gather_composed (options : ReadOptions) (chunk : Nat) :
    Composed writing (gather options chunk) := by
  refine available_composed.bind fun left => (readPieces_composed options chunk _).bind fun gathered => ?_
  obtain ⟨text, stop⟩ := gathered
  cases stop with
  | none => exact Composed.pure _
  | some byte => exact Composed.pure _

theorem readText_composed (options : ReadOptions) (chunk : Nat) :
    Composed writing (readText options chunk) := by
  rw [readText_eq]
  refine prepareRead_composed.bind fun _ => ?_
  dsimp only
  split
  · exact available_composed.bind fun left => (skipBlanks_composed _).bind fun _ =>
      gather_composed options chunk
  · exact gather_composed options chunk

theorem search_composed (needle : Bytes) (start finish : Nat) :
    Composed writing (search needle start finish) := by
  refine prepareRead_composed.bind fun _ => (seek_composed start).bind fun _ => ?_
  split
  · exact Composed.pure _
  · refine Composed.get_bind fun channel => ?_
    split
    · exact (skip_composed _).bind fun _ => Composed.pure _
    · exact (skip_composed _).bind fun _ => Composed.pure _

theorem probe_composed (needle : Bytes) (position : Nat) : Composed writing (probe needle position) :=
  (seek_composed position).bind fun _ => skip_composed needle.length

theorem searchBack_composed (needle : Bytes) (first last : Nat) :
    Composed writing (searchBack needle first last) := by
  refine prepareRead_composed.bind fun _ => ?_
  split
  · exact (seek_composed first).bind fun _ => Composed.pure _
  · split
    · exact (seek_composed last).bind fun _ => Composed.pure _
    · refine (probe_composed needle first).bind fun _ => Composed.get_bind fun channel => ?_
      split
      · exact (probe_composed needle _).bind fun _ => Composed.pure _
      · exact (seek_composed last).bind fun _ => Composed.pure _

theorem served_composed {entry : Entry} {transfer : Transfer α} (serves : entry.Serves writing transfer) :
    Composed writing transfer := by
  cases serves with
  | readChar => exact prepareRead_composed.bind fun _ => readByte_composed
  | unread byte _ => exact unread_composed byte
  | readText options chunk => exact readText_composed options chunk
  | readBytes count => exact prepareRead_composed.bind fun _ => readBytes_composed count
  | write bytes asked _ =>
      subst asked
      exact prepareWrite_composed.bind fun _ => writeAll_composed bytes
  | flush => exact flush_composed
  | reposition target => exact reposition_composed target
  | rewind => exact rewind_composed
  | position => exact position_composed
  | size => exact size_composed
  | search needle start finish => exact search_composed needle start finish
  | searchBack needle first last => exact searchBack_composed needle first last

end Transfer

end Calculator
