import Calculator.Copy.Error
import Calculator.Machine
import Calculator.Number.Digits

/-!
# Destinations of a copy

Each destination has its own way to take what a copy brings: blocks grow, texts and containers keep
their size, numbers take new digits, and files are written at a position. A destination is changed
where it stands, step by step. A copy that is refused on the way leaves what it has changed by then.
-/

namespace Calculator

namespace Copy

/-- What a copy works on: its destination and the machine. -/
structure Scene where
  destination : Value
  machine : Machine

/-- A block that is changed where it stands, with the files that its bytes may come from. -/
structure Bench where
  block : Block
  files : Files

end Copy

abbrev SceneM := ExceptT CopyError (StateM Copy.Scene)

abbrev BenchM := ExceptT CopyError (StateM Copy.Bench)

abbrev SlotsM := ExceptT CopyError (StateM (List Value))

/-- Copies change the machine's named blocks and files, and may be refused. -/
abbrev CopyM := ExceptT CopyError (StateM Machine)

namespace Copy

/-- Makes room for so many bytes; refused where the block would have to grow and may not. -/
def makeRoom (length : Nat) (canGrow : Bool) : BenchM Unit := do
  match (← get).block.reserve length canGrow with
  | .fits => return
  | .grown larger => modify fun bench => { bench with block := larger }
  | .denied => throw .noRealloc

/-- Writes bytes at `position`, or behind the data when it is negative. -/
def writeBlock (canGrow : Bool) (bytes : Bytes) (position : Int) : BenchM Unit := do
  let length := (← get).block.length
  let start := if position < 0 then length else position.toNat
  makeRoom (start + bytes.length) canGrow
  modify fun bench => { bench with block := bench.block.put start bytes }

/-- Works on the block that the destination stands for, in the destination or in the registry. The work
is told whether the block may grow. -/
def onBlock (work : Bool → BenchM Unit) : SceneM Unit := fun scene =>
  let destination := scene.destination
  let machine := scene.machine
  let valueGrows := destination.protection.canGrow
  match destination.data with
  | .block block =>
      let (result, bench) := work valueGrows { block, files := machine.files }
      (result,
        { destination := { destination with data := .block bench.block }
          machine := { machine with files := bench.files } })
  | .namedBlock id =>
      match machine.blocks.get? id with
      | none => (.error .freedDestination, scene)
      | some named =>
          match named.block with
          | none => (.error .freedDestination, scene)
          | some block =>
              let (result, bench) :=
                work (valueGrows && named.protection.canGrow) { block, files := machine.files }
              (result,
                { destination
                  machine := { machine with
                    blocks := machine.blocks.setStorage id (some bench.block)
                    files := bench.files } })
  | _ => (.error (.badDestinationType destination.kind), scene)

def putData (data : Data Value) : SceneM Unit :=
  modify fun scene => { scene with destination := { scene.destination with data } }

/-- Digits go over the numerator from a word on, or above its top word when that is negative. -/
def intoNumber (number : Number) (bytes : Bytes) (position : Int) : Number :=
  number.overwriteNumerator (if position < 0 then number.numeratorLength else position.toNat) bytes

/-- Bytes go over a text as far as it reaches. The payload stays the same one where this owner is its
only one, and where nothing is written. -/
def intoText (text : Payload Bytes) (exclusive : Bool) (bytes : Bytes) (position : Int) :
    Payload Bytes :=
  let start := position.toNat
  if text.content.length ≤ start then text
  else
    { content := text.content.overwrite start (bytes.take (text.content.length - start))
      mark := if exclusive then text.mark else none }

/-- Values take the place of slots one after the other; a slot keeps its own protection as well. -/
def putSlots : List Value → Nat → SlotsM Unit
  | [], _ => return
  | value :: rest, index => do
      modify fun slots => slots.modify index fun slot => value.protect slot.protection
      putSlots rest (index + 1)

/-- Elements take the place of slots, which must all be there. -/
def writeSlots (values : List Value) (position : Int) : SlotsM Unit := do
  let start := position.toNat
  if (← get).length < start + values.length then throw .destinationIndexTooLarge
  putSlots values start

/-- Works on the slots of the destination. -/
def onSlots (slots : List Value) (rebuild : List Value → Data Value) (work : SlotsM Unit) :
    SceneM Unit := do
  let (result, slots) := work slots
  putData (rebuild slots)
  result

/-- A file that is not open in the direction of the copy is reported as such. -/
def fileFault (id : FileId) (wrap : FileError → CopyError) : FileError → CopyError
  | .notOpen _ => .fileNotOpen id
  | .notReadable _ => .fileNotOpen id
  | .notWritable _ => .fileNotOpen id
  | error => wrap error

/-- An operation on files beside a block that is worked on. -/
def besideBlock {α : Type} (id : FileId) (wrap : FileError → CopyError) (operation : FileM α) :
    BenchM α := fun bench =>
  let (result, files) := operation bench.files
  (result.mapError (fileFault id wrap), { bench with files })

def onFiles {α : Type} (id : FileId) (wrap : FileError → CopyError) (operation : FileM α) :
    CopyM α := fun machine =>
  let (result, files) := operation machine.files
  (result.mapError (fileFault id wrap), { machine with files })

/-- Bytes are written at a position, or where the file stands when that is negative. The standard
streams always write where they stand. -/
def intoFile (id : FileId) (bytes : Bytes) (position : Int) : CopyM Unit := do
  if id == FileId.stdin then throw (.fileNotOpen id)
  if 0 ≤ position && !id.isStandard then
    onFiles id .seekFailed (Files.setPosition id position)
  onFiles id .shortWrite (Files.write id bytes)
  onFiles id .shortWrite (Files.flush id)

def onMachine {α : Type} (work : CopyM α) : SceneM α := fun scene =>
  let (result, machine) := work scene.machine
  (result, { scene with machine })

end Copy

end Calculator
