import Calculator.Copy.Destination
import Calculator.Copy.Source

/-!
# The copy gateway

`copy` moves units of one value into another, whatever their kinds. Protection is checked first, then
the kinds, then the source index; each pair of kinds has its own route. A negative count takes the
rest of the source. A negative destination index appends to a block, starts a text or container at
zero, and writes a file where it stands.
-/

namespace Calculator.Copy

/-- The named block that a source reads from. -/
def sourceBlock? (source : Value) : Option BlockId :=
  match source.data with
  | .namedBlock id => some id
  | .octet (.namedBlock id) _ => some id
  | _ => none

def destinationBlock? (destination : Value) : Option BlockId :=
  match destination.data with
  | .namedBlock id => some id
  | _ => none

/-- A named block can be copied from: it exists, is not protected and not freed. -/
def checkSourceBlock (blocks : NamedBlocks) (id : BlockId) : Except CopyError Unit :=
  match blocks.get? id with
  | none => .error .freedSource
  | some named =>
      if named.protection.contains Protection.noCopyFrom then .error (.namedSourceProtected id)
      else if named.block.isNone then .error .freedSource
      else .ok ()

/-- A named block can be copied to. -/
def checkDestinationBlock (blocks : NamedBlocks) (id : BlockId) : Except CopyError Unit :=
  match blocks.get? id with
  | none => .error .freedDestination
  | some named =>
      if named.protection.contains Protection.noCopyTo then .error (.namedDestinationProtected id)
      else if named.block.isNone then .error .freedDestination
      else .ok ()

def checkProtection (blocks : NamedBlocks) (source destination : Value) :
    Except CopyError Unit := do
  if source.protection.contains Protection.noCopyFrom then throw .sourceProtected
  if destination.protection.contains Protection.noCopyTo then throw .destinationProtected
  match sourceBlock? source with
  | some id => checkSourceBlock blocks id
  | none => pure ()
  match destinationBlock? destination with
  | some id => checkDestinationBlock blocks id
  | none => pure ()

def neverSource (kind : Kind) : Bool :=
  kind == .null || kind == .complex || kind == .association || kind == .error

def neverDestination (kind : Kind) : Bool :=
  kind == .null || kind == .complex || kind == .octet || kind == .association || kind == .error

def checkKinds (source destination : Kind) : Except CopyError Unit :=
  if neverSource source then .error (.badSourceType source)
  else if neverDestination destination then .error (.badDestinationType destination)
  else .ok ()

def isBlock (kind : Kind) : Bool :=
  kind == .block || kind == .namedBlock

/-- The pairs of kinds between which there is a route. -/
def isRoute (source destination : Kind) : Bool :=
  match destination with
  | .block => !(source == .list)
  | .namedBlock => !(source == .list)
  | .number => isBlock source
  | .file => isBlock source || source == .text
  | .text => isBlock source || source == .text || source == .octet
  | .matrix => isBlock source || source == .matrix || source == .list
  | .list => source == .matrix || source == .list
  | _ => false

def maxSourceFile : Int := 2147483647

/-- Part of a file goes into a block; all of the part must be there. -/
def readFileInto (id : FileId) (start : Nat) (count position : Int) (canGrow : Bool) :
    BenchM Unit := do
  if id.isStandard then throw (.fileNotOpen id)
  let size ← besideBlock id .seekFailed (Files.size id)
  if maxSourceFile < size then throw .sourceTooLarge
  let wanted := clamp size.toNat start count
  if wanted = 0 then return
  besideBlock id .seekFailed (Files.setPosition id start)
  let bytes ← besideBlock id .seekFailed (Files.readBytes id wanted)
  if bytes.length < wanted then throw .shortRead
  writeBlock canGrow bytes position

/-- The routes, once protection, kinds and index are checked. Nothing happens where no unit is
selected. -/
def routeInto (source : Value) (start : Nat) (count position : Int) (exclusive : Bool) :
    SceneM Unit := do
  let scene ← get
  let blocks := scene.machine.blocks
  match scene.destination.data with
  | .number payload =>
      let bytes ← bytesForBlock blocks source start count
      if bytes.isEmpty then return
      putData (.number (.fresh (intoNumber payload.content bytes position)))
  | .text payload =>
      let bytes ← bytesForText blocks source start count
      if bytes.isEmpty then return
      putData (.text (intoText payload exclusive bytes position))
  | .file id =>
      let bytes ← bytesForText blocks source start count
      if bytes.isEmpty then return
      onMachine (intoFile id bytes position)
  | .matrix bounds slots =>
      let values ← elements blocks source start count
      if values.isEmpty then return
      onSlots slots (.matrix bounds) (writeSlots values position)
  | .list items =>
      let values ← elements blocks source start count
      if values.isEmpty then return
      onSlots items .list (writeSlots values position)
  | _ =>
      match source.data with
      | .file id => onBlock (readFileInto id start count position)
      | _ =>
          let bytes ← bytesForBlock blocks source start count
          if bytes.isEmpty then return
          onBlock fun canGrow => writeBlock canGrow bytes position

/-- Copies `count` units of `source` from `start` on into the destination at `position`. `exclusive`
tells that the destination is the only owner of its payload. -/
def copyInto (source : Value) (start count position : Int) (exclusive : Bool) : SceneM Unit := do
  let scene ← get
  checkProtection scene.machine.blocks source scene.destination
  checkKinds source.kind scene.destination.kind
  if start < 0 then throw .negativeIndex
  if !isRoute source.kind scene.destination.kind then
    throw (.unsupported source.kind scene.destination.kind)
  routeInto source start.toNat count position exclusive

/-- Fills bytes of a block from `start` on; a negative count fills to the end of the data. -/
def fillInto (byte : UInt8) (count start : Int) : SceneM Unit := do
  let scene ← get
  checkProtection scene.machine.blocks Value.null scene.destination
  if start < 0 then throw .negativeIndex
  onBlock fun _ => modify fun bench =>
    let size := clamp bench.block.length start.toNat count
    { bench with block := bench.block.fill byte start.toNat size }

/-- A change of a destination that is answered as it is then, and is not looked at after a refusal. -/
def answering (change : SceneM Unit) (destination : Value) : CopyM Value := fun machine =>
  let (result, scene) := change { destination, machine }
  (result.map fun _ => scene.destination, scene.machine)

def copy (source : Value) (start count : Int) (destination : Value) (position : Int)
    (exclusive : Bool) : CopyM Value :=
  answering (copyInto source start count position exclusive) destination

def fill (destination : Value) (byte : UInt8) (count start : Int) : CopyM Value :=
  answering (fillInto byte count start) destination

/-- A change of a destination through the gateway. -/
inductive Change where
  | copy (source : Value) (start count position : Int)
  | fill (byte : UInt8) (count start : Int)

def Change.program (change : Change) (exclusive : Bool) : SceneM Unit :=
  match change with
  | .copy source start count position => copyInto source start count position exclusive
  | .fill byte count start => fillInto byte count start

/-- Compares the data of two blocks, anonymous or named. -/
def compare (blocks : NamedBlocks) (left right : Value) : Except CopyError Bool := do
  let leftBlock ← blockOf blocks left
  let rightBlock ← (blockOf blocks right).mapError fun
    | .badSourceType kind => .badDestinationType kind
    | error => error
  return leftBlock.same rightBlock

end Calculator.Copy
