import Calculator.Proofs.RegularFile
import Calculator.Proofs.StreamCalls

/-!
# What requests leave alone

All that a transfer does but collect output is to change the marks and the input of its stream, to read,
to move its descriptor and to flush. A relation that these steps keep is kept by every such transfer,
and a relation between file tables that such transfers on one handle keep is kept by every request on
it that does not write.
-/

namespace Calculator

namespace Transfer

open Effect (Always)

/-- What steps other than the collection of output keep. -/
structure Frame (kept : Channel → Channel → Prop) : Prop where
  refl : ∀ channel, kept channel channel
  trans : ∀ first second third, kept first second → kept second third → kept first third
  stream : ∀ (channel : Channel) (stream : Stream), stream.descriptor = channel.stream.descriptor →
    stream.buffered = channel.stream.buffered → stream.pending = channel.stream.pending →
    kept channel { channel with stream }
  read : ∀ channel count,
    kept channel { channel with host := (channel.host.read channel.stream.descriptor count).2 }
  seek : ∀ channel target,
    kept channel { channel with host := (channel.host.seek channel.stream.descriptor target).2 }
  seekBack : ∀ channel count,
    kept channel { channel with host := (channel.host.seekBack channel.stream.descriptor count).2 }
  flush : Always kept flush

def Framed {α : Type} (transfer : Transfer α) : Prop :=
  ∀ kept, Frame kept → Always kept transfer

variable {α β : Type}

theorem Framed.pure (result : α) : Framed (Pure.pure result) :=
  fun _ frame => Always.pure frame.refl result

theorem Framed.bind {transfer : Transfer α} {next : α → Transfer β} (first : Framed transfer)
    (continued : ∀ result, Framed (next result)) : Framed (transfer >>= next) :=
  fun kept frame => Always.bind frame.trans (first kept frame) fun result => continued result kept frame

theorem Framed.get_bind {next : Channel → Transfer α} (continued : ∀ channel, Framed (next channel)) :
    Framed ((MonadState.get : Transfer Channel) >>= next) :=
  fun kept frame => Always.get_bind fun channel => continued channel kept frame

theorem modifyStream_framed {change : Stream → Stream}
    (kept : ∀ stream, (change stream).descriptor = stream.descriptor
      ∧ (change stream).buffered = stream.buffered ∧ (change stream).pending = stream.pending) :
    Framed (modifyStream change) := by
  intro _ frame channel
  obtain ⟨descriptor, buffered, pending⟩ := kept channel.stream
  exact frame.stream channel (change channel.stream) descriptor buffered pending

theorem request_framed {run : Host → DescriptorId → Except Fault α × Host}
    (asks : ∀ kept, Frame kept → ∀ channel : Channel,
      kept channel { channel with host := (run channel.host channel.stream.descriptor).2 }) :
    Framed (request run) := by
  intro kept frame channel
  have asked := asks kept frame channel
  unfold request
  rcases answered : run channel.host channel.stream.descriptor with ⟨answer, host⟩
  rw [answered] at asked
  cases answer with
  | ok result => exact asked
  | error fault => exact frame.trans _ _ _ asked (frame.stream _ _ rfl rfl rfl)

theorem fetch_framed (count : Nat) : Framed (request fun host descriptor => host.read descriptor count) :=
  request_framed fun _ frame channel => frame.read channel count

theorem flush_framed : Framed flush :=
  fun _ frame => frame.flush

theorem seek_framed (target : Nat) : Framed (seek target) := by
  have forgets : Framed (modifyStream fun stream =>
      { stream with ahead := [], pushback := [], eof := false }) :=
    modifyStream_framed fun _ => ⟨rfl, rfl, rfl⟩
  exact flush_framed.bind fun _ => forgets.bind fun _ =>
    request_framed fun _ frame channel => frame.seek channel target

theorem forgetAhead_framed : Framed forgetAhead :=
  modifyStream_framed fun _ => ⟨rfl, rfl, rfl⟩

theorem discardAhead_framed : Framed discardAhead := by
  refine Framed.get_bind fun channel => forgetAhead_framed.bind fun _ => ?_
  split
  · exact request_framed fun _ frame channel => frame.seekBack channel _
  · exact Framed.pure _

theorem readByte_framed : Framed readByte := by
  refine Framed.get_bind fun channel => ?_
  have change {change : Stream → Stream} {result : Option UInt8}
      (kept : ∀ stream, (change stream).descriptor = stream.descriptor
        ∧ (change stream).buffered = stream.buffered ∧ (change stream).pending = stream.pending) :
      Framed (do modifyStream change; return result : Transfer (Option UInt8)) :=
    (modifyStream_framed kept).bind fun _ => Framed.pure _
  dsimp only
  split
  · exact change fun _ => ⟨rfl, rfl, rfl⟩
  · exact change fun _ => ⟨rfl, rfl, rfl⟩
  · refine (fetch_framed _).bind fun bytes => ?_
    split
    · exact change fun _ => ⟨rfl, rfl, rfl⟩
    · exact change fun _ => ⟨rfl, rfl, rfl⟩

theorem unread_framed (byte : UInt8) : Framed (unread byte) :=
  modifyStream_framed fun _ => ⟨rfl, rfl, rfl⟩

theorem call_framed (call : StreamCall) (unwritten : call.writes = false) : Framed call.perform := by
  cases call with
  | readByte => exact readByte_framed.bind fun _ => Framed.pure _
  | unread byte => exact unread_framed byte
  | writeAll bytes => cases unwritten
  | flush => exact flush_framed
  | discardAhead => exact discardAhead_framed
  | seek target => exact seek_framed target
  | clearMarks => exact modifyStream_framed fun _ => ⟨rfl, rfl, rfl⟩
  | turn direction => exact modifyStream_framed fun _ => ⟨rfl, rfl, rfl⟩

theorem Composed.framed {transfer : Transfer α} (composed : Composed false transfer) :
    Framed transfer := by
  intro kept frame channel
  obtain ⟨calls, unwritten, reached⟩ := composed channel
  rw [← reached]
  refine List.foldlRecOn (motive := (kept channel ·)) calls _ (frame.refl channel) ?_
  intro later between call made
  have quiet : call.writes = false := Bool.eq_false_iff.mpr fun hands => by cases unwritten call made hands
  exact frame.trans _ _ _ between (call_framed call quiet kept frame later)

theorem prepareWrite_framed : Framed prepareWrite :=
  prepareWrite_composed.framed

theorem rewind_framed : Framed rewind :=
  rewind_composed.framed

end Transfer

namespace Files

open Effect (Always)

variable {kept : Files → Files → Prop} {id : FileId}

/-- Every transfer that does not collect output keeps the relation, run on the file of `id`. -/
def KeepsRuns (kept : Files → Files → Prop) (id : FileId) : Prop :=
  ∀ {α : Type} (transfer : Transfer α), transfer.Framed → ∀ files entry,
    files.table.find? id = some entry → kept files (run entry transfer files).2

theorem perform_always (chain : Chain kept) (runs : KeepsRuns kept id) {request : FileRequest}
    (own : request.handle = id) (unwritten : request.writes = false) : Always kept request.perform := by
  intro files
  have served := perform_served request files
  rw [own, unwritten] at served
  refine chain.along ?_ served
  rintro _ _ ⟨found, serves⟩
  exact runs _ (Transfer.served_composed serves).framed _ _ found

end Files

end Calculator
