import Calculator.File.Reader
import Calculator.File.Search
import Calculator.Proofs.Patch

/-!
# Plain files

A file without buffers: its content, a position in it, the bytes that were pushed back, whether its end
was met, and the direction of the last transfer. Every request of the file table has a plain answer. A
read takes pushed back bytes first and then the content from the position on. A write goes to the place
that `tell` names and forgets pushed back bytes. What the buffers of a stream may do is measured by
this machine.
-/

namespace Calculator

structure PlainFile where
  content : Bytes
  position : Nat
  /-- Bytes pushed back, the last one first. -/
  pushed : Bytes
  eof : Bool
  direction : Direction
  deriving DecidableEq, Repr

namespace PlainFile

def opened (content : Bytes) : PlainFile where
  content := content
  position := 0
  pushed := []
  eof := false
  direction := .none

def remaining (file : PlainFile) : Bytes :=
  file.pushed ++ file.content.drop file.position

def tell (file : PlainFile) : Nat :=
  file.position - file.pushed.length

/-- The file after `count` of the bytes that remain were read. -/
def advance (file : PlainFile) (count : Nat) : PlainFile :=
  { file with
    pushed := file.pushed.drop count
    position := file.position + (count - file.pushed.length) }

def exhaust (file : PlainFile) : PlainFile :=
  { file.advance file.remaining.length with eof := true }

def take (file : PlainFile) (count : Nat) : Bytes × PlainFile :=
  if count ≤ file.remaining.length then (file.remaining.take count, file.advance count)
  else (file.remaining, file.exhaust)

def next (file : PlainFile) : Option UInt8 × PlainFile :=
  match file.remaining with
  | [] => (none, file.exhaust)
  | byte :: _ => (some byte, file.advance 1)

def push (file : PlainFile) (byte : UInt8) : PlainFile :=
  { file with pushed := byte :: file.pushed, eof := false }

def goTo (file : PlainFile) (target : Nat) : PlainFile :=
  { file with position := target, pushed := [], eof := false }

def toward (file : PlainFile) (direction : Direction) : PlainFile :=
  { file with direction }

/-- Writes bytes at the place that `tell` names. -/
def write (file : PlainFile) (bytes : Bytes) : PlainFile :=
  { file with
    content := file.content.patch file.tell bytes
    position := file.tell + bytes.length
    pushed := []
    direction := .write }

def text (options : ReadOptions) (bytes : Bytes) : Bytes :=
  bytes.takeWhile fun byte => !options.stopsAt byte

/-- Reads up to the byte that stops the text, or to the end. -/
def readUntilStop (file : PlainFile) (options : ReadOptions) :
    (Bytes × Option UInt8) × PlainFile :=
  let read := text options file.remaining
  match file.remaining[read.length]? with
  | some stop => ((read, some stop), file.advance (read.length + 1))
  | none => ((read, none), file.exhaust)

/-- Reads past white space where the text must not begin with it. -/
def skipBlanks (file : PlainFile) (options : ReadOptions) : PlainFile :=
  if options.stopBlank then
    match file.remaining.dropWhile ReadOptions.isBlank with
    | [] => file.exhaust
    | _ :: _ =>
        { file.advance (file.remaining.takeWhile ReadOptions.isBlank).length with eof := false }
  else file

/-- Reads a text up to the byte that stops it; none when nothing remains. -/
def readText (file : PlainFile) (options : ReadOptions) : Option Bytes × PlainFile :=
  match (file.skipBlanks options).readUntilStop options with
  | ((read, some stop), file) => (some (if options.strip then read else read ++ [stop]), file)
  | ((read, none), file) => (if read.isEmpty then none else some read, file)

def firstPlace? (needle content : Bytes) (start finish : Nat) : Option Nat :=
  (List.range' start (finish - start)).find? fun place => Bytes.leads needle (content.drop place)

def lastPlace? (needle content : Bytes) (first last : Nat) : Option Nat :=
  (List.range' last (first + 1 - last)).reverse.find? fun place =>
    Bytes.leads needle (content.drop place)

/-- Without a match, what a match before `finish` could cover is read. -/
def search (file : PlainFile) (needle : Bytes) (start finish : Nat) : Option Nat × PlainFile :=
  if needle.isEmpty then (if start < finish then some start else none, file.goTo start)
  else
    match firstPlace? needle file.content start finish with
    | some place => (some place, file.goTo (place + needle.length))
    | none => (none, ((file.goTo start).take (finish - start + needle.length)).2)

def searchBack (file : PlainFile) (needle : Bytes) (first last : Nat) : Option Nat × PlainFile :=
  if needle.isEmpty then (some first, file.goTo first)
  else
    match lastPlace? needle file.content first last with
    | some place => (some place, file.goTo (place + needle.length))
    | none => (none, file.goTo last)

/-- The place that a move leads to, counted from the start (0), the position (1) or the end (2). -/
def target (file : PlainFile) (offset whence : Int) : Except FileError Nat :=
  match whence with
  | 0 => Position.toAbsolute offset
  | 1 => Position.toAbsolute (file.tell + offset)
  | 2 => Position.toAbsolute (file.content.length + offset)
  | _ => .error (.badWhence whence)

theorem target_cases (file : PlainFile) (offset whence : Int) :
    (∃ start : Nat, ((whence = 0 ∧ start = 0) ∨ (whence = 1 ∧ start = file.tell)
        ∨ (whence = 2 ∧ start = file.content.length))
      ∧ file.target offset whence = Position.toAbsolute (start + offset))
    ∨ ((whence ≠ 0 ∧ whence ≠ 1 ∧ whence ≠ 2)
      ∧ file.target offset whence = .error (.badWhence whence)) := by
  unfold target
  split
  · exact .inl ⟨0, .inl ⟨rfl, rfl⟩, by simp⟩
  · exact .inl ⟨file.tell, .inr (.inl ⟨rfl, rfl⟩), rfl⟩
  · exact .inl ⟨file.content.length, .inr (.inr ⟨rfl, rfl⟩), rfl⟩
  · exact .inr ⟨⟨‹_›, ‹_›, ‹_›⟩, rfl⟩

@[simp]
theorem goTo_content (file : PlainFile) (target : Nat) :
    (file.goTo target).content = file.content := rfl

@[simp]
theorem toward_content (file : PlainFile) (direction : Direction) :
    (file.toward direction).content = file.content := rfl

@[simp]
theorem take_content (file : PlainFile) (count : Nat) : (file.take count).2.content = file.content := by
  rw [take]
  split <;> rfl

@[simp]
theorem take_direction (file : PlainFile) (count : Nat) :
    (file.take count).2.direction = file.direction := by
  rw [take]
  split <;> rfl

@[simp]
theorem next_direction (file : PlainFile) : file.next.2.direction = file.direction := by
  rw [next]
  split <;> rfl

theorem readUntilStop_direction (file : PlainFile) (options : ReadOptions) :
    (file.readUntilStop options).2.direction = file.direction := by
  rw [readUntilStop]
  split <;> rfl

theorem skipBlanks_direction (file : PlainFile) (options : ReadOptions) :
    (file.skipBlanks options).direction = file.direction := by
  rw [skipBlanks]
  split
  · split <;> rfl
  · rfl

theorem readText_direction (file : PlainFile) (options : ReadOptions) :
    (file.readText options).2.direction = file.direction := by
  have kept := (file.skipBlanks options).readUntilStop_direction options
  rw [skipBlanks_direction] at kept
  rw [readText]
  revert kept
  generalize (file.skipBlanks options).readUntilStop options = outcome
  obtain ⟨⟨read, stop⟩, left⟩ := outcome
  intro kept
  cases stop <;> exact kept

@[simp]
theorem search_direction (file : PlainFile) (needle : Bytes) (start finish : Nat) :
    (file.search needle start finish).2.direction = file.direction := by
  rw [search]
  split
  · rfl
  · split
    · rfl
    · exact take_direction _ _

@[simp]
theorem searchBack_direction (file : PlainFile) (needle : Bytes) (first last : Nat) :
    (file.searchBack needle first last).2.direction = file.direction := by
  rw [searchBack]
  split
  · rfl
  · split <;> rfl

theorem advance_zero (file : PlainFile) : file.advance 0 = file := by
  simp [advance]

theorem advance_advance (file : PlainFile) (first second : Nat) :
    (file.advance first).advance second = file.advance (first + second) := by
  simp only [advance, List.drop_drop, List.length_drop, mk.injEq, true_and, and_true]
  omega

@[simp]
theorem remaining_advance (file : PlainFile) (count : Nat) :
    (file.advance count).remaining = file.remaining.drop count := by
  simp [remaining, advance, List.drop_append]

theorem exhaust_advance (file : PlainFile) {count : Nat} (enough : count ≤ file.remaining.length) :
    (file.advance count).exhaust = file.exhaust := by
  simp only [exhaust, remaining_advance, List.length_drop, advance_advance, Nat.add_sub_cancel' enough]

theorem next_of_nil {file : PlainFile} (nothing : file.remaining = []) :
    file.next = (none, file.exhaust) := by
  simp [next, nothing]

theorem next_of_cons {file : PlainFile} {byte : UInt8} {rest : Bytes}
    (left : file.remaining = byte :: rest) : file.next = (some byte, file.advance 1) := by
  simp [next, left]

theorem remaining_of_cons {file : PlainFile} {byte : UInt8} {rest : Bytes}
    (left : file.remaining = byte :: rest) : (file.advance 1).remaining = rest := by
  rw [remaining_advance, left]
  rfl

@[simp]
theorem take_zero (file : PlainFile) : file.take 0 = ([], file) := by
  simp [take, advance_zero]

theorem take_succ_of_nil {file : PlainFile} (nothing : file.remaining = []) (count : Nat) :
    file.take (count + 1) = ([], file.exhaust) := by
  simp [take, nothing]

theorem take_succ_of_cons {file : PlainFile} {byte : UInt8} {rest : Bytes}
    (left : file.remaining = byte :: rest) (count : Nat) :
    file.take (count + 1)
      = (byte :: ((file.advance 1).take count).1, ((file.advance 1).take count).2) := by
  have passed := remaining_of_cons left
  by_cases enough : count ≤ rest.length
  · simp [take, left, passed, enough, advance_advance, Nat.add_comm]
  · have spent := file.exhaust_advance (by simp [left] : 1 ≤ file.remaining.length)
    simp [take, left, passed, enough, spent]

theorem text_cons_of_stop {options : ReadOptions} {byte : UInt8} (stops : options.stopsAt byte = true)
    (rest : Bytes) : text options (byte :: rest) = [] := by
  simp [text, stops]

theorem text_cons_of_inside {options : ReadOptions} {byte : UInt8}
    (inside : options.stopsAt byte = false) (rest : Bytes) :
    text options (byte :: rest) = byte :: text options rest := by
  simp [text, inside]

theorem push_advance (file : PlainFile) (byte : UInt8) (count : Nat) :
    (file.push byte).advance (count + 1) = { file.advance count with eof := false } := by
  simp only [push, advance, List.drop_succ_cons, List.length_cons, mk.injEq, true_and, and_true]
  omega

theorem tell_advance_pos {file : PlainFile} (room : file.pushed.length ≤ file.position) :
    0 < (file.advance 1).tell := by
  simp only [tell, advance, List.length_drop]
  omega

theorem write_nil_write (file : PlainFile) (bytes : Bytes) :
    (file.write []).write bytes = file.write bytes := by
  simp [write, tell]

theorem write_write (file : PlainFile) (first second : Bytes) :
    (file.write first).write second = file.write (first ++ second) := by
  simp [write, tell, Bytes.patch_append, Nat.add_assoc]

theorem remaining_push (file : PlainFile) (byte : UInt8) :
    (file.push byte).remaining = byte :: file.remaining := rfl

end PlainFile

/-- A plain file under its handle, with the mode that it was opened in. -/
structure PlainEntry where
  mode : Mode
  file : PlainFile
  deriving DecidableEq, Repr

abbrev PlainFiles := FileId → Option PlainEntry

def PlainFiles.set (files : PlainFiles) (id : FileId) (entry : PlainEntry) : PlainFiles :=
  fun other => if other = id then some entry else files other

/-- What the file table is asked for while files are open. -/
inductive FileRequest where
  | readChar (id : FileId)
  | unreadChar (id : FileId) (byte : UInt8)
  | readText (id : FileId) (options : ReadOptions)
  | readBytes (id : FileId) (count : Nat)
  | write (id : FileId) (bytes : Bytes)
  | writeTerminated (id : FileId) (bytes : Bytes)
  | seek (id : FileId) (offset whence : Int)
  | setPosition (id : FileId) (position : Int)
  | rewind (id : FileId)
  | tell (id : FileId)
  | size (id : FileId)
  | flush (id : FileId)
  | isEof (id : FileId)
  | search (id : FileId) (needle : Bytes) (start finish : Int)
  | searchBack (id : FileId) (needle : Bytes) (first last : Int)

inductive FileAnswer where
  | done
  | byte (read : Option UInt8)
  | text (read : Option Bytes)
  | bytes (read : Bytes)
  | number (value : Int)
  | flag (value : Bool)
  | place (found : Option Int)
  deriving DecidableEq, Repr

namespace FileRequest

def handle : FileRequest → FileId
  | readChar id | unreadChar id _ | readText id _ | readBytes id _ | write id _
  | writeTerminated id _ | seek id _ _ | setPosition id _ | rewind id | tell id | size id
  | flush id | isEof id | search id _ _ _ | searchBack id _ _ _ => id

/-- Puts a request to the file table. -/
def perform : FileRequest → FileM FileAnswer
  | readChar id => return .byte (← Files.readChar id)
  | unreadChar id byte => do Files.unreadChar id byte; return .done
  | readText id options => return .text (← Files.readText id options)
  | readBytes id count => return .bytes (← Files.readBytes id count)
  | write id bytes => do Files.write id bytes; return .done
  | writeTerminated id bytes => do Files.writeTerminated id bytes; return .done
  | seek id offset whence => do Files.seek id offset whence; return .done
  | setPosition id position => do Files.setPosition id position; return .done
  | rewind id => do Files.rewind id; return .done
  | tell id => return .number (← Files.tell id)
  | size id => return .number (← Files.size id)
  | flush id => do Files.flush id; return .done
  | isEof id => return .flag (← Files.isEof id)
  | search id needle start finish => return .place (← Files.search id needle start finish)
  | searchBack id needle first last => return .place (← Files.searchBack id needle first last)

/-- Puts requests one after the other, whatever is answered, and lists the answers. -/
def performAll : List FileRequest → Files → List (Except FileError FileAnswer) × Files
  | [], files => ([], files)
  | request :: rest, files =>
      let (answer, files) := request.perform files
      let (answers, files) := performAll rest files
      (answer :: answers, files)

/-- Positions are checked before the file is looked for. -/
def checkArguments : FileRequest → Except FileError Unit
  | seek _ offset _ => do let _ ← Position.toOffset offset
  | setPosition id position => do
      if id.isStandard then throw (.standardStream id)
      let _ ← Position.toAbsolute position
  | search _ _ start finish => do
      let _ ← Position.toAbsolute start
      let _ ← Position.toAbsolute finish
  | searchBack _ _ first last => do
      let _ ← Position.toAbsolute first
      let _ ← Position.toAbsolute last
  | _ => .ok ()

def reads : FileRequest → Bool
  | readChar _ | unreadChar _ _ | readText _ _ | readBytes _ _ | search _ _ _ _
  | searchBack _ _ _ _ => true
  | _ => false

def writes : FileRequest → Bool
  | write _ _ | writeTerminated _ _ => true
  | _ => false

/-- The file of a request, where the request is admitted. -/
def file? (request : FileRequest) (files : PlainFiles) : Except FileError PlainEntry := do
  request.checkArguments
  match files request.handle with
  | none => throw (.notOpen request.handle)
  | some entry =>
      if request.reads && !entry.mode.reading then throw (.notReadable request.handle)
      else if request.writes && !entry.mode.writing then throw (.notWritable request.handle)
      else return entry

/-- What an admitted request does to its file. -/
def act : FileRequest → PlainFile → Except FileError FileAnswer × PlainFile
  | readChar _, file => ((file.toward .read).next).map (.ok ∘ .byte) id
  | unreadChar id byte, file =>
      if file.direction = .read then (.ok .done, file.push byte) else (.error (.notReading id), file)
  | readText _ options, file => ((file.toward .read).readText options).map (.ok ∘ .text) id
  | readBytes _ count, file => ((file.toward .read).take count).map (.ok ∘ .bytes) id
  | write _ bytes, file => (.ok .done, file.write bytes)
  | writeTerminated _ bytes, file => (.ok .done, file.write (bytes ++ [0]))
  | seek _ offset whence, file =>
      match file.target offset whence with
      | .ok target => (.ok .done, (file.goTo target).toward .none)
      | .error error => (.error error, file)
  | setPosition _ position, file => (.ok .done, (file.goTo position.toNat).toward .none)
  | rewind _, file => (.ok .done, (file.goTo 0).toward .none)
  | tell _, file => (.ok (.number file.tell), file)
  | size _, file => (.ok (.number file.content.length), file)
  | flush _, file => (.ok .done, file)
  | isEof _, file => (.ok (.flag file.eof), file)
  | search _ needle start finish, file =>
      ((file.toward .read).search needle start.toNat finish.toNat).map
        (fun found => .ok (.place (found.map Int.ofNat))) id
  | searchBack _ needle first last, file =>
      ((file.toward .read).searchBack needle first.toNat last.toNat).map
        (fun found => .ok (.place (found.map Int.ofNat))) id

def answer (request : FileRequest) (files : PlainFiles) :
    Except FileError FileAnswer × PlainFiles :=
  match request.file? files with
  | .error error => (.error error, files)
  | .ok entry =>
      let (result, file) := request.act entry.file
      (result, files.set request.handle { entry with file })

def answerAll : List FileRequest → PlainFiles → List (Except FileError FileAnswer) × PlainFiles
  | [], files => ([], files)
  | request :: rest, files =>
      let (answer, files) := request.answer files
      let (answers, files) := answerAll rest files
      (answer :: answers, files)

def pushesInside : FileRequest → PlainFile → Bool
  | unreadChar _ _, file => 0 < file.tell
  | _, _ => true

/-- The furthest place that a request asks the host to go to or to write up to. -/
def reach : FileRequest → PlainFile → Nat
  | write _ bytes, file => file.tell + bytes.length
  | writeTerminated _ bytes, file => file.tell + bytes.length + 1
  | seek _ offset whence, file => (file.target offset whence).toOption.getD 0
  | setPosition _ position, _ => position.toNat
  | search _ _ start _, _ => start.toNat
  | searchBack _ needle first last, _ =>
      if needle.isEmpty || last.toNat ≤ first.toNat then first.toNat else last.toNat
  | _, _ => 0

def staysInside (request : FileRequest) (file : PlainFile) : Bool :=
  request.reach file ≤ Content.maxSize

/-- Whether a condition holds of every admitted request of a run and the file that it finds. -/
def along (condition : FileRequest → PlainFile → Bool) : List FileRequest → PlainFiles → Bool
  | [], _ => true
  | request :: rest, files =>
      (match request.file? files with
        | .ok entry => condition request entry.file
        | .error _ => true)
      && along condition rest (request.answer files).2

end FileRequest

end Calculator
