import Calculator.Proofs.Records
import Calculator.Proofs.RegularFile

/-!
# Reading at the pace of a host

A host may answer a request with fewer bytes than were asked for, as pipes often do. It answers with a
piece of what is left, and with nothing only at the end. The readers of texts are said here for a host at
any such pace; at the pace that answers in full they are the readers that run.
-/

namespace Calculator

/-- How many of the bytes that are asked for are answered at once: some of them always. -/
structure Pace where
  portion : Host → DescriptorId → Nat → Nat
  some : ∀ host id {count}, 0 < count → 0 < portion host id count
  most : ∀ host id count, portion host id count ≤ count

/-- Everything is answered at once. -/
def Pace.prompt : Pace where
  portion := fun _ _ count => count
  some := fun _ _ _ asked => asked
  most := fun _ _ count => Nat.le_refl count

namespace Host

/-- What a file or a pipe still delivers. The null device delivers nothing; other nodes deliver bytes
without an end, or none at all. -/
def rest? (host : Host) (id : DescriptorId) : Option Bytes :=
  match host.open? id with
  | some (descriptor, .file content) => some (content.toBytes.drop descriptor.offset)
  | some (_, .pipe queued) => some queued
  | some (_, .nullDevice) => some []
  | _ => none

variable {host : Host} {id : DescriptorId} {rest : Bytes}

theorem rest?_cases (left : host.rest? id = some rest) :
    (∃ descriptor content, host.open? id = some (descriptor, .file content)
        ∧ rest = content.toBytes.drop descriptor.offset)
      ∨ (∃ descriptor, host.open? id = some (descriptor, .pipe rest))
      ∨ (∃ descriptor, host.open? id = some (descriptor, .nullDevice)) ∧ rest = [] := by
  unfold rest? at left
  split at left
  · cases left
    exact .inl ⟨_, _, ‹_›, rfl⟩
  · cases left
    exact .inr (.inl ⟨_, ‹_›⟩)
  · cases left
    exact .inr (.inr ⟨⟨_, ‹_›⟩, rfl⟩)
  · cases left

theorem remaining_of_rest (left : host.rest? id = some rest) : host.remaining id = rest.length := by
  unfold remaining
  rcases rest?_cases left with ⟨descriptor, content, opened, rfl⟩ | ⟨descriptor, opened⟩
    | ⟨⟨descriptor, opened⟩, rfl⟩
  · rw [opened, List.length_drop, ← Content.size_eq]
  · rw [opened]
  · rw [opened]
    rfl

theorem read_piece (left : host.rest? id = some rest) {count : Nat} (asked : 0 < count) :
    ∃ bytes after behind, host.read id count = (.ok bytes, after) ∧ (bytes = [] → rest = [])
      ∧ after.rest? id = some behind ∧ bytes ++ behind = rest := by
  have dry {bytes : Bytes} (none : bytes.take count = []) : bytes = [] :=
    (List.take_eq_nil_iff.mp none).resolve_left (Nat.ne_of_gt asked)
  unfold read
  rcases rest?_cases left with ⟨descriptor, content, opened, rfl⟩ | ⟨descriptor, opened⟩
    | ⟨⟨descriptor, opened⟩, rfl⟩
  · have taken := content.read_eq descriptor.offset count
    have reached := setOffset_open? opened
      (descriptor.offset + (content.read descriptor.offset count).length)
    rw [opened]
    refine ⟨_, _, _, rfl, fun none => dry (taken.symm.trans none), by rw [rest?, reached], ?_⟩
    dsimp only
    rw [← List.drop_drop, taken, List.length_take]
    rcases Nat.le_total count (content.toBytes.drop descriptor.offset).length with short | enough
    · rw [Nat.min_eq_left short, List.take_append_drop]
    · rw [Nat.min_eq_right enough, List.take_of_length_le enough, List.drop_length, List.append_nil]
  · have reached := setNode_open? opened (.pipe (rest.drop count))
    rw [opened]
    exact ⟨_, _, _, rfl, dry, by rw [rest?, reached], List.take_append_drop count rest⟩
  · rw [opened]
    exact ⟨[], host, [], rfl, fun _ => rfl, left, rfl⟩

def readAt (pace : Pace) (host : Host) (id : DescriptorId) (count : Nat) :
    Except Fault Bytes × Host :=
  host.read id (pace.portion host id count)

end Host

namespace Transfer

variable (pace : Pace)

def readByteAt : Transfer (Option UInt8) := do
  let stream := (← get).stream
  match stream.pushback, stream.ahead with
  | byte :: rest, _ =>
      modifyStream fun stream => { stream with pushback := rest }
      return some byte
  | [], byte :: rest =>
      modifyStream fun stream => { stream with ahead := rest }
      return some byte
  | [], [] =>
      match ← request fun host descriptor => host.readAt pace descriptor Stream.bufferSize with
      | [] =>
          modifyStream fun stream => { stream with eof := true }
          return none
      | byte :: rest =>
          modifyStream fun stream => { stream with ahead := rest }
          return some byte

def skipBlanksAt : Nat → Transfer Unit
  | 0 => return ()
  | fuel + 1 => do
      match ← readByteAt pace with
      | none => return ()
      | some byte => if ReadOptions.isBlank byte then skipBlanksAt fuel else unread byte

def readPieceAt (options : ReadOptions) : Nat → Transfer (Bytes × PieceEnd)
  | 0 => return ([], .full)
  | room + 1 => do
      match ← readByteAt pace with
      | none => return ([], .atEof)
      | some byte =>
          if options.stopsAt byte then return ([], .stopped byte)
          else
            let (piece, ending) ← readPieceAt options room
            return (byte :: piece, ending)

def readPiecesAt (options : ReadOptions) (chunk : Nat) : Nat → Transfer (Bytes × Option UInt8)
  | 0 => return ([], none)
  | fuel + 1 => do
      let (piece, ending) ← readPieceAt pace options chunk
      match ending with
      | .stopped byte => return (piece, some byte)
      | .atEof => return (piece, none)
      | .full =>
          let (rest, stop) ← readPiecesAt options chunk fuel
          return (piece ++ rest, stop)

def gatherAt (options : ReadOptions) (chunk : Nat) : Transfer (Option Bytes) := do
  let (text, stop) ← readPiecesAt pace options chunk ((← available) + 1)
  match stop with
  | none => return if text.isEmpty then none else some text
  | some byte => return some (if options.strip then text else text ++ [byte])

def readTextAt (options : ReadOptions) (chunk : Nat) : Transfer (Option Bytes) := do
  prepareRead
  if options.stopBlank then
    skipBlanksAt pace ((← available) + 1)
    gatherAt pace options chunk
  else gatherAt pace options chunk

theorem readByteAt_prompt : readByteAt .prompt = readByte := rfl

theorem skipBlanksAt_prompt : skipBlanksAt .prompt = skipBlanks := by
  funext fuel
  induction fuel with
  | zero => rfl
  | succ fuel ih =>
      rw [skipBlanksAt, ih, readByteAt_prompt]
      rfl

theorem readPieceAt_prompt (options : ReadOptions) :
    readPieceAt .prompt options = readPiece options := by
  funext room
  induction room with
  | zero => rfl
  | succ room ih =>
      rw [readPieceAt, ih, readByteAt_prompt]
      rfl

theorem readPiecesAt_prompt (options : ReadOptions) (chunk : Nat) :
    readPiecesAt .prompt options chunk = readPieces options chunk := by
  funext fuel
  induction fuel with
  | zero => rfl
  | succ fuel ih =>
      rw [readPiecesAt, ih, readPieceAt_prompt]
      rfl

theorem readTextAt_prompt (options : ReadOptions) (chunk : Nat) :
    readTextAt .prompt options chunk = readText options chunk := by
  have gathers : gatherAt .prompt options chunk = gather options chunk := by
    rw [gatherAt, readPiecesAt_prompt]
    rfl
  rw [readText_eq, readTextAt, skipBlanksAt_prompt, gathers]

end Transfer

def Files.readTextAt (pace : Pace) (id : FileId) (options : ReadOptions) : FileM (Option Bytes) := do
  let entry ← readableEntry id
  run entry (Transfer.readTextAt pace options (← get).table.readChunk)

theorem Files.readTextAt_prompt (id : FileId) (options : ReadOptions) :
    readTextAt .prompt id options = readText id options := by
  unfold readTextAt readText
  simp only [Transfer.readTextAt_prompt]

end Calculator
