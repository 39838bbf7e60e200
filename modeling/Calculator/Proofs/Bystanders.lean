import Calculator.Proofs.Frame

/-!
# Requests on other files

A request on one file does nothing to the nodes that no descriptor of it is open on. So a file that is
alone on its node sees no request on another handle, whether it reads, writes or moves.
-/

namespace Calculator

namespace Host

variable {host : Host} {id : DescriptorId} {node : NodeId}

theorem read_sameAt (apart : host.node? id ≠ some node) (count : Nat) :
    SameAt node host (host.read id count).2 := by
  unfold read
  cases opened : host.open? id with
  | none => exact SameAt.refl node host
  | some found =>
      obtain ⟨descriptor, written⟩ := found
      have elsewhere : descriptor.node ≠ node := by
        rintro rfl
        exact apart (node?_of_open? opened)
      cases written with
      | file content => exact setOffset_sameAt host id _ apart
      | pipe queued => exact setNode_sameAt host _ elsewhere
      | directory parent entries => exact SameAt.refl node host
      | fullDevice => exact SameAt.refl node host
      | nullDevice => exact SameAt.refl node host

theorem seek_sameAt (apart : host.node? id ≠ some node) (target : Nat) :
    SameAt node host (host.seek id target).2 := by
  have moved := setOffset_sameAt host id target apart
  unfold seek
  split
  · exact SameAt.refl node host
  · split
    · exact moved
    · exact SameAt.refl node host
  · exact moved
  · exact SameAt.refl node host
  · exact SameAt.refl node host
  · exact SameAt.refl node host

theorem seekBack_sameAt (apart : host.node? id ≠ some node) (count : Nat) :
    SameAt node host (host.seekBack id count).2 := by
  unfold seekBack
  split
  · exact SameAt.refl node host
  · exact SameAt.refl node host
  · split
    · exact SameAt.refl node host
    · split
      · exact seek_sameAt apart _
      · exact SameAt.refl node host

end Host

namespace Transfer

open Effect (Always)

/-- The stream stays on its descriptor, and nothing happens to `node` unless that is open on it. -/
def Away (node : NodeId) (before after : Channel) : Prop :=
  after.stream.descriptor = before.stream.descriptor
    ∧ (before.host.node? before.stream.descriptor ≠ some node →
      Host.SameAt node before.host after.host)

variable {node : NodeId}

theorem Away.refl (channel : Channel) : Away node channel channel :=
  ⟨rfl, fun _ => Host.SameAt.refl node channel.host⟩

theorem Away.trans (first second third : Channel) (one : Away node first second)
    (two : Away node second third) : Away node first third := by
  refine ⟨two.1.trans one.1, ?_⟩
  intro apart
  have same := one.2 apart
  refine same.trans (two.2 ?_)
  rwa [one.1, same.node?]

theorem away_of_stream (channel : Channel) {stream : Stream}
    (descriptor : stream.descriptor = channel.stream.descriptor) :
    Away node channel { channel with stream } :=
  ⟨descriptor, fun _ => Host.SameAt.refl node channel.host⟩

theorem flush_away : Always (Away node) flush := by
  intro channel
  obtain ⟨host, descriptor, _⟩ := Files.flush_channel channel
  refine ⟨descriptor, ?_⟩
  rw [host]
  exact Host.write_sameAt channel.host channel.stream.descriptor channel.stream.pending

theorem away_frame (node : NodeId) : Frame (Away node) where
  refl := Away.refl
  trans := Away.trans
  stream := fun channel _ descriptor _ _ => away_of_stream channel descriptor
  read := fun _ count => ⟨rfl, fun apart => Host.read_sameAt apart count⟩
  seek := fun _ target => ⟨rfl, fun apart => Host.seek_sameAt apart target⟩
  seekBack := fun _ count => ⟨rfl, fun apart => Host.seekBack_sameAt apart count⟩
  flush := flush_away

theorem framed_node? {α : Type} {transfer : Transfer α} (framed : transfer.Framed) (channel : Channel)
    (descriptor : DescriptorId) :
    (transfer channel).2.host.node? descriptor = channel.host.node? descriptor := by
  have elsewhere : channel.host.node? channel.stream.descriptor
      ≠ some ((channel.host.node? channel.stream.descriptor).getD 0 + 1) := by
    cases channel.host.node? channel.stream.descriptor <;> simp
  exact ((framed _ (away_frame _) channel).2 elsewhere).node? descriptor

theorem writeAll_away (bytes : Bytes) : Always (Away node) (writeAll bytes) := by
  intro channel
  cases buffered : channel.stream.buffered with
  | true =>
      rw [writeAll_buffered buffered]
      have collected : Away node channel { channel with
          stream := { channel.stream with pending := channel.stream.pending ++ bytes } } :=
        away_of_stream channel rfl
      dsimp only
      split
      · exact Away.trans _ _ _ collected (flush_away _)
      · exact collected
  | false =>
      rw [writeAll_unbuffered buffered]
      obtain ⟨host, descriptor, _⟩ := Files.request_channel
        (fun host descriptor => host.write descriptor bytes) channel
      refine ⟨descriptor, ?_⟩
      rw [host]
      exact Host.write_sameAt channel.host channel.stream.descriptor bytes

end Transfer

namespace Files

open Effect (Always)

variable {id other : FileId} {node : NodeId} {α : Type}

def Unseen (id : FileId) (node : NodeId) (before after : Files) : Prop :=
  before.Alone id node → Aside id node before after

theorem unseen_chain (id : FileId) (node : NodeId) : Chain (Unseen id node) where
  refl := fun files _ => Aside.refl id node files
  trans := by
    intro first second third one two alone
    have aside := one alone
    exact aside.trans (two (aside.alone alone))

theorem run_unseen {transfer : Transfer α} (away : Always (Transfer.Away node) transfer)
    {files : Files} {entry : Entry} (found : files.table.find? other = some entry)
    (differs : other ≠ id) : Unseen id node files (run entry transfer files).2 := by
  intro alone
  have own := FileTable.id_of_find? found
  have apart := alone entry (FileTable.mem_of_find? found) (own ▸ differs)
  obtain ⟨descriptor, same⟩ := away { stream := entry.stream, host := files.host }
  exact run_aside (own ▸ differs) apart (same apart) descriptor

theorem write_unseen (differs : other ≠ id) (bytes : Bytes) :
    Always (Unseen id node) (write other bytes) := by
  refine (writableEntry_looks other).always (unseen_chain id node) fun files entry _ found => ?_
  refine run_unseen (Always.bind Transfer.Away.trans ?_ fun _ => Transfer.writeAll_away bytes) found
    differs
  exact Transfer.prepareWrite_framed _ (Transfer.away_frame node)

theorem perform_aside {request : FileRequest} (differs : request.handle ≠ id) {files : Files}
    (alone : files.Alone id node) : Aside id node files (request.perform files).2 := by
  have chain := unseen_chain id node
  suffices unseen : Always (Unseen id node) request.perform from unseen files alone
  cases writes : request.writes with
  | false =>
      refine perform_always chain ?_ rfl writes
      intro α transfer framed files entry found
      exact run_unseen (framed _ (Transfer.away_frame node)) found differs
  | true =>
      cases request with
      | write other bytes => exact map_always chain (write_unseen differs bytes) _
      | writeTerminated other bytes =>
          exact map_always chain
            (Always.bind chain.trans (write_unseen differs bytes) fun _ => write_unseen differs [0]) _
      | _ => cases writes

end Files

end Calculator
