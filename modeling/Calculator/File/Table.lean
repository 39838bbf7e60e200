import Calculator.File.Mode
import Calculator.File.Position
import Calculator.File.Stream

/-!
# The file table

The table lists the open files in the order in which they were opened. Handles 0, 1 and 2 are the
standard streams and never close. Every other file gets the next handle, and a handle is never given
to a second file except when a file is reopened under it. An entry has its handle in it and is found by
that, so there is no key beside it that could be another one. Handles are words of 32 bits, counted up
here without an end; runs that give out all words are not modelled.
-/

namespace Calculator

structure Entry where
  id : FileId
  name : String
  mode : Mode
  /-- The node that the file was open on when it was entered here. -/
  node : Option NodeId
  stream : Stream

structure FileTable where
  entries : List Entry
  lastId : Nat
  maxFiles : Nat
  readChunk : Nat

namespace FileTable

def find? (table : FileTable) (id : FileId) : Option Entry :=
  table.entries.find? (fun entry => entry.id == id)

def isOpen (table : FileTable) (id : FileId) : Bool :=
  (table.find? id).isSome

def isFull (table : FileTable) : Bool :=
  table.maxFiles ≤ table.entries.length

/-- Descriptors are numbered by signed 32-bit words, and so the limit of the table is one where it
bounds them. -/
def descriptorLimit (table : FileTable) : Int :=
  Word.signed32 table.maxFiles

def update (table : FileTable) (id : FileId) (change : Entry → Entry) : FileTable :=
  { table with
    entries := table.entries.map fun entry => if entry.id == id then change entry else entry }

def setStream (table : FileTable) (id : FileId) (stream : Stream) : FileTable :=
  table.update id fun entry => { entry with stream }

def append (table : FileTable) (entry : Entry) : FileTable :=
  { table with entries := table.entries ++ [entry] }

def remove (table : FileTable) (id : FileId) : FileTable :=
  { table with entries := table.entries.filter fun entry => entry.id != id }

def ids (table : FileTable) : List FileId :=
  table.entries.map Entry.id

/-- The handle of the file at a place in the order. -/
def atIndex? (table : FileTable) (index : Nat) : Option FileId :=
  (table.entries[index]?).map Entry.id

end FileTable

/-- The file table and the host that its files are on. -/
structure Files where
  table : FileTable
  host : Host

/-- Operations on files. An error leaves the files as the operation left them. -/
abbrev FileM := ExceptT FileError (StateM Files)

namespace Files

def entry (id : FileId) : FileM Entry := do
  match (← get).table.find? id with
  | some entry => return entry
  | none => throw (.notOpen id)

def readableEntry (id : FileId) : FileM Entry := do
  let entry ← entry id
  if entry.mode.reading then return entry else throw (.notReadable id)

def writableEntry (id : FileId) : FileM Entry := do
  let entry ← entry id
  if entry.mode.writing then return entry else throw (.notWritable id)

/-- Runs a transfer on the stream of an entry and keeps what it leaves behind. -/
def run {α : Type} (entry : Entry) (transfer : Transfer α) : FileM α := fun files =>
  let (result, channel) := transfer { stream := entry.stream, host := files.host }
  (result.mapError FileError.host,
    { table := files.table.setStream entry.id channel.stream, host := channel.host })

def request {α : Type} (ask : Host → Except Fault α × Host) : FileM α := fun files =>
  let (result, host) := ask files.host
  (result.mapError FileError.host, { files with host })

def parseMode (text : String) : FileM Mode :=
  match Mode.parse? text with
  | some mode => return mode
  | none => throw (.badMode text)

def requireRoom : FileM Unit := do
  if (← get).table.isFull then throw .tooManyOpen

/-- A new entry on a descriptor. -/
def newEntry (host : Host) (id : FileId) (descriptor : DescriptorId) (name : String) (mode : Mode)
    (buffered : Bool) : Entry where
  id := id
  name := name
  mode := mode
  node := host.node? descriptor
  stream := Stream.new descriptor buffered

/-- Enters a descriptor under the next handle. -/
def enter (files : Files) (descriptor : DescriptorId) (name : String) (mode : Mode) :
    FileId × Files :=
  let id : FileId := ⟨files.table.lastId + 1⟩
  let entry := newEntry files.host id descriptor name mode true
  (id, { files with table := { files.table.append entry with lastId := id.number } })

/-- Enters every descriptor that was open before the start, in the order of their numbers, below the
limit of the table and until it is full. An entry has a duplicate of its own, numbered from the limit
on; where there are no such numbers, nothing is entered. -/
def adoptInherited (files : Files) : Files :=
  let limit := files.table.descriptorLimit
  files.host.inherited.foldl
    (fun files inheritance =>
      if inheritance.number < 3 || limit ≤ inheritance.number || Host.maxDescriptors ≤ limit
          || files.table.isFull then files
      else
        (files.enter inheritance.descriptor
          ("descriptor[" ++ Positional.decimal inheritance.number ++ "]")
          (Mode.ofAccess inheritance.access)).2)
    files

/-- The standard streams, on the host's first three descriptors. -/
def standardEntries (host : Host) : List Entry :=
  [newEntry host FileId.stdin 0 "(stdin)" { base := .read, binary := false, update := false } false,
   newEntry host FileId.stdout 1 "(stdout)" { base := .write, binary := false, update := false }
     false,
   newEntry host FileId.stderr 2 "(stderr)" { base := .write, binary := false, update := false }
     false]

def new (host : Host) (maxFiles readChunk : Nat) (adopt : Bool) : Files :=
  let files : Files :=
    { table :=
        { entries := standardEntries host
          lastId := FileId.stderr.number
          maxFiles := max maxFiles 3
          readChunk := max readChunk 1 }
      host := host }
  if adopt then files.adoptInherited else files

/-- Opens a file by name. -/
def openFile (name mode : String) : FileM FileId := do
  let mode ← parseMode mode
  requireRoom
  let descriptor ← request fun host => host.openName name mode.request
  modifyGet fun files => files.enter descriptor name mode

/-- Opens a file again under its handle, in a new mode and, if given, by a new name. A closed file
needs a name. Output that cannot be written fails the request and leaves the entry as it was; when the
host refuses to open the file, its entry is gone. -/
def reopen (id : FileId) (mode : String) (name : Option String) : FileM FileId := do
  if id.isStandard then throw (.standardStream id)
  let mode ← parseMode mode
  match (← get).table.find? id with
  | some entry =>
      let path := name.getD entry.name
      if entry.mode.writing then run entry Transfer.flush
      let files ← get
      match files.host.openName path mode.request with
      | (.ok descriptor, host) =>
          let entry := newEntry host id descriptor path mode true
          set ({ table := files.table.update id fun _ => entry, host } : Files)
          return id
      | (.error fault, host) =>
          set ({ table := files.table.remove id, host } : Files)
          throw (.host fault)
  | none =>
      let some path := name | throw (.nameRequired id)
      if (← get).table.lastId < id.number then throw (.notOpen id)
      requireRoom
      let descriptor ← request fun host => host.openName path mode.request
      modify fun files =>
        { files with table := files.table.append (newEntry files.host id descriptor path mode true) }
      return id

/-- Closes a file. Its output is written first; a stream that failed before is reported. -/
def close (id : FileId) : FileM Unit := do
  if id.isStandard then throw (.standardStream id)
  let entry ← entry id
  modify fun files => { files with table := files.table.remove id }
  if entry.mode.writing then run entry Transfer.flush
  if entry.stream.failed then throw (.host .failedBeforeClose)

/-- Runs an operation for each handle and reports the first error after all have run. -/
def forAll (operation : FileId → FileM Unit) : List FileId → FileM Unit
  | [] => return ()
  | id :: rest => do
      let first ← tryCatch (do operation id; return none) (fun error => return some error)
      match first with
      | none => forAll operation rest
      | some error =>
          tryCatch (forAll operation rest) (fun _ => return ())
          throw error

def closeAll : FileM Unit := do
  forAll close ((← get).table.ids.filter fun id => !id.isStandard)

/-- Writes pending output out. There is none where the last transfer was a read. -/
def flush (id : FileId) : FileM Unit := do
  let entry ← entry id
  if entry.mode.writing && entry.stream.direction != .read then run entry Transfer.flush

def flushAll : FileM Unit := do
  forAll flush (← get).table.ids

def rewind (id : FileId) : FileM Unit := do
  run (← entry id) Transfer.rewind

/-- Rewinds files in order up to the first that fails; standard streams may fail. -/
def rewindEach : List FileId → FileM Unit
  | [] => return ()
  | id :: rest => do
      if id.isStandard then tryCatch (rewind id) (fun _ => return ()) else rewind id
      rewindEach rest

def rewindAll : FileM Unit := do
  rewindEach (← get).table.ids

def isEof (id : FileId) : FileM Bool := do
  return (← entry id).stream.eof

def isFailed (id : FileId) : FileM Bool := do
  return (← entry id).stream.failed

/-- Nothing that the host holds is a terminal. -/
def isTerminal (_id : FileId) : FileM Bool :=
  return false

/-- The node of an open file; two files are the same when their nodes are. -/
def node (id : FileId) : FileM (Option NodeId) := do
  return (← entry id).node

def readChar (id : FileId) : FileM (Option UInt8) := do
  run (← readableEntry id) do
    Transfer.prepareRead
    Transfer.readByte

def unreadChar (id : FileId) (byte : UInt8) : FileM Unit := do
  let entry ← readableEntry id
  if entry.stream.direction != .read then throw (.notReading id)
  run entry (Transfer.unread byte)

def write (id : FileId) (bytes : Bytes) : FileM Unit := do
  run (← writableEntry id) do
    Transfer.prepareWrite
    Transfer.writeAll bytes

def writeTerminated (id : FileId) (bytes : Bytes) : FileM Unit := do
  write id bytes
  write id [0]

def tell (id : FileId) : FileM Int := do
  return ((← run (← entry id) Transfer.position) : Int)

/-- Moves relative to the start (0), the position (1) or the end (2). -/
def seek (id : FileId) (offset whence : Int) : FileM Unit := do
  let offset ← Position.toOffset offset
  let start ← (do
    let entry ← entry id
    match whence with
    | 0 => return 0
    | 1 => run entry Transfer.position
    | 2 => run entry Transfer.size
    | _ => throw (.badWhence whence))
  if !Number.fitsWord start then throw .positionOutOfRange
  let target ← Position.toAbsolute (start + offset)
  run (← entry id) (Transfer.reposition target)

/-- Moves to a position counted from the start; not on the standard streams. -/
def setPosition (id : FileId) (position : Int) : FileM Unit := do
  if id.isStandard then throw (.standardStream id)
  let target ← Position.toAbsolute position
  run (← entry id) (Transfer.reposition target)

def size (id : FileId) : FileM Int := do
  return ((← run (← entry id) Transfer.size) : Int)

/-- At most `count` bytes, fewer only at the end of the file. -/
def readBytes (id : FileId) (count : Nat) : FileM Bytes := do
  run (← readableEntry id) do
    Transfer.prepareRead
    Transfer.readBytes count

def shutdown (files : Files) : Files :=
  let flushed := (flushAll files).2
  flushed.table.entries.foldl (fun files entry => (run entry Transfer.flush files).2) flushed

end Files

end Calculator
