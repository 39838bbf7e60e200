import Calculator.Proofs.StreamBuffers
import Calculator.Proofs.TableSteps

/-!
# What waits in the streams of a file table

Every call on the file table leaves its streams tidy, also a call that fails. So in every state of a run
the direction of a stream tells what its buffers can hold.
-/

namespace Calculator

theorem Transfer.served_tidies {entry : Entry} {α : Type} {transfer : Transfer α}
    (serves : entry.Serves true transfer) (tidy : entry.stream.Tidy) (host : Host) :
    (transfer { stream := entry.stream, host }).2.stream.Tidy := by
  cases serves with
  | readChar => exact tidies_of_turn prepareRead_ensures readByte_keeps _ tidy
  | unread byte turned => exact (unread_keeps byte _ ⟨tidy, turned⟩).1
  | readText options chunk => exact readText_tidies options chunk _ tidy
  | readBytes count => exact tidies_of_turn prepareRead_ensures (readBytes_keeps count) _ tidy
  | write bytes _ _ => exact tidies_of_turn prepareWrite_ensures (writeAll_keeps bytes) _ tidy
  | flush => exact flush_keeps.tidies _ tidy
  | reposition target => exact (reposition_keeps target).tidies _ tidy
  | rewind => exact rewind_keeps.tidies _ tidy
  | position => exact position_keeps.tidies _ tidy
  | size => exact size_keeps.tidies _ tidy
  | search needle start finish => exact search_tidies needle start finish _ tidy
  | searchBack needle first last => exact searchBack_tidies needle first last _ tidy

namespace Files

open Effect (Upholds)

def Tidy (files : Files) : Prop :=
  ∀ entry ∈ files.table.entries, entry.stream.Tidy

variable {files : Files} {id : FileId} {entry : Entry}

theorem Tidy.found (tidy : files.Tidy) (found : files.table.find? id = some entry) : entry.stream.Tidy :=
  tidy entry (FileTable.mem_of_find? found)

theorem Path.tidy {first last : Files} (path : Path first last) (tidy : first.Tidy) : last.Tidy :=
  path.each Stream.new_tidy Transfer.served_tidies tidy

theorem perform_upholds (request : FileRequest) : Upholds Tidy request.perform fun _ => True :=
  fun before tidy => ⟨(perform_served request before).path.tidy tidy, fun _ _ => trivial⟩

end Files

theorem FileCall.perform_upholds (call : FileCall) :
    Effect.Upholds Files.Tidy call.perform fun _ => True :=
  fun before tidy => ⟨(call.after_path before).tidy tidy, fun _ _ => trivial⟩

/-- In every state of every run each stream holds output only after a write and input only after a
read, and no buffer is full. -/
theorem Files.tidy_over_runs (host : Host) (maxFiles readChunk : Nat) (adopt : Bool)
    (calls : List FileCall) :
    (FileCall.afterAll calls (Files.new host maxFiles readChunk adopt)).Tidy :=
  each_over_runs Stream.new_tidy Transfer.served_tidies host maxFiles readChunk adopt calls

end Calculator
