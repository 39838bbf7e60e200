import Calculator.Builtin.Argument
import Calculator.Copy.Gateway
import Calculator.Text.Decoding

/-!
# Block builtins
-/

namespace Calculator.Builtin

/-- Largest size or index that a call may ask for. -/
def maxSize : Int := 2147483647

/-- Codes for an argument that is no integer, is negative, or is too large. -/
structure BoundCodes where
  type : ErrorCode
  negative : ErrorCode
  range : ErrorCode

/-- A size or index; `default` when it is left out. -/
def bounded (codes : BoundCodes) (default : Int) (arguments : List Value) (index : Nat) :
    BuiltinM Int :=
  match optional arguments index with
  | none => return default
  | some value => do
      let integer ← integerOr codes.type value
      if !Number.fitsWord integer then throw codes.range
      else if integer < 0 then throw codes.negative
      else if maxSize < integer then throw codes.range
      else return integer

/-- Runs an operation on the registry of named blocks. -/
def onBlocks (operation : NamedBlocks → Except BlockError NamedBlocks) : BuiltinM Unit := do
  let machine ← get
  match operation machine.blocks with
  | .ok blocks => set { machine with blocks }
  | .error error => throw error.code

/-- The values that `blk` resizes or creates by name. -/
def isBlockTarget (value : Value) : Bool :=
  value.kind == .text || value.kind == .namedBlock || value.kind == .block

/-- Length and chunk as `blk` takes them; minus one when they are left out. -/
def blockSettings (arguments : List Value) : BuiltinM (Int × Int) := do
  let length ← bounded ⟨.blkLengthType, .blkLengthRange, .blkLengthRange⟩ (-1) arguments 0
  let chunk ← bounded ⟨.blkChunkType, .blkChunkRange, .blkChunkRange⟩ (-1) arguments 1
  return (length, chunk)

/-- Resizes the block of a name, or creates it. -/
def namedBlock (name : String) (length chunk : Int) : BuiltinM BlockId := do
  let machine ← get
  match machine.blocks.find? name with
  | some id =>
      onBlocks fun blocks => blocks.resize id length chunk
      return id
  | none =>
      let chunk := if chunk ≤ 0 then Word.signed64 machine.config.blockChunk else chunk
      match machine.blocks.create name (max length 0) chunk with
      | .ok (id, blocks) =>
          set { machine with blocks }
          return id
      | .error error => throw error.code

/-- Allocates a block, or creates or resizes the one given by name, handle or value. -/
def blk (arguments : List Value) : BuiltinM Value := do
  match arguments with
  | target :: rest =>
      if isBlockTarget target then
        let (length, chunk) ← blockSettings rest
        match target.data with
        | .text payload =>
            return Value.ofNamedBlock (← namedBlock (Text.decode payload.content) length chunk)
        | .namedBlock id =>
            onBlocks fun blocks => blocks.resize id length chunk
            return Value.ofNamedBlock id
        | .block block =>
            return { target with data := .block (block.resize length chunk) }
        | _ => throw .blkLengthType
      else anonymous
  | [] => anonymous
where
  anonymous : BuiltinM Value := do
    let (length, chunk) ← blockSettings arguments
    let machine ← get
    return Value.ofBlock (Block.allocate length.toNat
      (if chunk < 0 then machine.config.blockChunk else chunk.toNat))

/-- Frees a named block given by handle, name or number. -/
def blkfree (arguments : List Value) : BuiltinM Value := do
  match (argument arguments 0).data with
  | .namedBlock id => onBlocks fun blocks => blocks.free id
  | .text payload => onBlocks fun blocks => blocks.freeByName (Text.decode payload.content)
  | .number _ =>
      let number ← bounded ⟨.blkfreeIndex, .blkfreeIndex, .blkfreeUnknown⟩ 0 arguments 0
      onBlocks fun blocks => blocks.free (BlockId.ofPlace number.toNat)
  | _ => throw .blkfreeType
  return Value.null

/-- The number of unfreed named blocks, or the one with a number. -/
def blocks (arguments : List Value) : BuiltinM Value := do
  let registry := (← get).blocks
  match arguments with
  | [] => return Value.ofInt registry.unfreedCount
  | value :: _ =>
      let number ← wordOr .blocksIndex value
      let id := BlockId.ofPlace number.toNat
      if number < 0 || UInt32.size ≤ number.toNat || (registry.get? id).isNone then
        throw .blocksUnknown
      return Value.ofNamedBlock id

/-- Copies between values; a refused copy has the code of its error. The destination is a further
owner of the payload of its argument. -/
def copyValues (source destination : Value) (start count position : Int) : BuiltinM Value :=
  fun machine =>
    let (result, machine) := Copy.copy source start count destination position false machine
    (result.mapError CopyError.code, machine)

def sourceIndex : List Value → Nat → BuiltinM Int :=
  bounded ⟨.copySourceIndex, .copySourceIndex, .copySourceIndexRange⟩ 0

def unitCount : List Value → Nat → BuiltinM Int :=
  bounded ⟨.copyCount, .copyCount, .copyCountRange⟩ (-1)

def destinationIndex : List Value → Nat → BuiltinM Int :=
  bounded ⟨.copyDestinationIndex, .copyDestinationIndex, .copyDestinationIndexRange⟩ (-1)

/-- `copy(source, destination, source index, count, destination index)`; returns the destination. -/
def copy (arguments : List Value) : BuiltinM Value := do
  let start ← sourceIndex arguments 2
  let count ← unitCount arguments 3
  let position ← destinationIndex arguments 4
  copyValues (argument arguments 0) (argument arguments 1) start count position

/-- `blkcpy(destination, source, count, destination index, source index)`; returns the
destination. -/
def blkcpy (arguments : List Value) : BuiltinM Value := do
  let start ← sourceIndex arguments 4
  let count ← unitCount arguments 2
  let position ← destinationIndex arguments 3
  copyValues (argument arguments 1) (argument arguments 0) start count position

end Calculator.Builtin
