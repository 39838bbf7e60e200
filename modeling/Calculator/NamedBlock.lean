import Calculator.Value.Basic

/-!
# Named blocks

The registry owns the blocks that have a name. Values hold only the handle, so growth through one
alias is seen through every other. A block that is freed keeps its handle and its name.

Blocks are listed in the order of their creation, and a map beside the list leads from a name to the
handle. Each entry stores its name and its handle too; that list and map agree is an invariant, not a
matter of definition.
-/

namespace Calculator

namespace BlockId

def display (id : BlockId) : String :=
  "NamedBlockId(" ++ Positional.decimal id.place ++ ")"

end BlockId

inductive BlockError where
  | nameExists (name : String)
  | noSuchName (name : String)
  | noSuchId (id : BlockId)
  | reallocDenied (id : BlockId)
  | badLength (length : Int)
  | badChunk (chunk : Int)
  deriving DecidableEq, Repr

namespace BlockError

def message : BlockError → String
  | nameExists name => "named block `" ++ name ++ "` already exists"
  | noSuchName name => "named block `" ++ name ++ "` does not exist"
  | noSuchId id => "block with id " ++ id.display ++ " does not exist"
  | reallocDenied id =>
      "no-realloc protection prevents resizing or freeing block " ++ id.display
  | badLength length =>
      "negative or too-large block length " ++ Positional.signedDecimal length
  | badChunk chunk => "negative or too-large chunk size " ++ Positional.signedDecimal chunk

def code : BlockError → ErrorCode
  | nameExists _ => ErrorCode.blkfreeName
  | noSuchName _ => ErrorCode.blkfreeName
  | noSuchId _ => ErrorCode.blkfreeUnknown
  | reallocDenied _ => ErrorCode.blkfreeProtected
  | badLength _ => ErrorCode.blkLengthRange
  | badChunk _ => ErrorCode.blkChunkRange

end BlockError

/-- A name with its storage, or with none once freed. -/
structure NamedBlock where
  name : String
  id : BlockId
  protection : Protection
  block : Option Block

/-- The blocks in the order of their creation, and the handles of all names. -/
structure NamedBlocks where
  blocks : List NamedBlock
  byName : List (String × BlockId)

namespace NamedBlocks

def empty : NamedBlocks := ⟨[], []⟩

def get? (registry : NamedBlocks) (id : BlockId) : Option NamedBlock :=
  registry.blocks[id.place]?

def find? (registry : NamedBlocks) (name : String) : Option BlockId :=
  registry.byName.lookup name

/-- The storage of a block that exists and is not freed. -/
def storage? (registry : NamedBlocks) (id : BlockId) : Option Block :=
  (registry.get? id).bind NamedBlock.block

def set (registry : NamedBlocks) (id : BlockId) (named : NamedBlock) : NamedBlocks :=
  { registry with blocks := registry.blocks.set id.place named }

def setStorage (registry : NamedBlocks) (id : BlockId) (block : Option Block) : NamedBlocks :=
  { registry with blocks := registry.blocks.modify id.place fun named => { named with block } }

def nextId (registry : NamedBlocks) : BlockId :=
  BlockId.ofPlace registry.blocks.length

/-- A new block under a name that is not in use. -/
def add (registry : NamedBlocks) (name : String) (block : Block) : NamedBlocks where
  blocks := registry.blocks ++ [⟨name, registry.nextId, Protection.none, some block⟩]
  byName := (name, registry.nextId) :: registry.byName

def create (registry : NamedBlocks) (name : String) (length chunk : Int) :
    Except BlockError (BlockId × NamedBlocks) :=
  if (registry.find? name).isSome then .error (.nameExists name)
  else if length < 0 then .error (.badLength length)
  else if chunk < 0 then .error (.badChunk chunk)
  else .ok (registry.nextId, registry.add name (Block.allocate length.toNat chunk.toNat))

/-- Resizes a block, and gives a freed one new storage. Negative settings are kept, chunk zero is the
default. A block protected against reallocation accepts only a request that keeps both settings. -/
def resize (registry : NamedBlocks) (id : BlockId) (length chunk : Int) :
    Except BlockError NamedBlocks :=
  match registry.get? id with
  | none => .error (.noSuchId id)
  | some named =>
      if named.protection.canGrow then
        match named.block with
        | some block => .ok (registry.setStorage id (some (block.resize length chunk)))
        | none =>
            let block := (Block.allocate 0 chunk.toNat).resize (max length 0) chunk
            .ok (registry.setStorage id (some block))
      else if length < 0 && chunk < 0 && named.block.isSome then .ok registry
      else .error (.reallocDenied id)

/-- Frees the storage. Handle and name stay reserved; a freed block may be freed again. -/
def free (registry : NamedBlocks) (id : BlockId) : Except BlockError NamedBlocks :=
  match registry.get? id with
  | none => .error (.noSuchId id)
  | some named =>
      if named.block.isNone then .ok registry
      else if named.protection.canGrow then .ok (registry.setStorage id none)
      else .error (.reallocDenied id)

def freeByName (registry : NamedBlocks) (name : String) : Except BlockError NamedBlocks :=
  match registry.find? name with
  | some id => registry.free id
  | none => .error (.noSuchName name)

/-- Adds protection bits. -/
def protect (registry : NamedBlocks) (id : BlockId) (bits : Protection) :
    Except BlockError NamedBlocks :=
  match registry.get? id with
  | none => .error (.noSuchId id)
  | some named =>
      .ok (registry.set id { named with protection := named.protection.union bits })

/-- Number of handles given out, those of freed blocks included. -/
def size (registry : NamedBlocks) : Nat :=
  registry.blocks.length

def unfreedCount (registry : NamedBlocks) : Nat :=
  registry.blocks.countP (fun named => named.block.isSome)

def listing (registry : NamedBlocks) : String :=
  if registry.unfreedCount = 0 then "No unfreed named blocks\n\n"
  else
    let rows := registry.blocks.filterMap fun named =>
      if named.block.isSome then
        some (Positional.column 3 named.id.place ++ "   " ++ named.name ++ "\n")
      else none
    " id   name\n----  -----\n" ++ String.join rows ++ "\n"

def describe (registry : NamedBlocks) (id : BlockId) : String :=
  match registry.get? id with
  | none => "block " ++ Positional.decimal id.place ++ ": (unknown)"
  | some named =>
      "block " ++ Positional.decimal named.id.place ++ ": " ++ named.name ++ "\n\t" ++
        match named.block with
        | some block => block.display
        | none => "(freed)"

end NamedBlocks

end Calculator
