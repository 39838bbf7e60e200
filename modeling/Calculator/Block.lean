import Calculator.Breach
import Calculator.Content

/-!
# Byte blocks

A block has a data length, a capacity and a chunk. The capacity grows by whole chunks, and the
storage between the data length and the capacity is kept zero, so that a block that grows into it
shows zeros.
-/

namespace Calculator

structure Block where
  storage : Content
  length : Nat
  chunk : Nat
  deriving DecidableEq, Repr

namespace Block

def defaultChunk : Nat := 256

/-- Zero asks for the default chunk. -/
def chunkOrDefault (chunk : Nat) : Nat :=
  if chunk = 0 then defaultChunk else chunk

def roomAbove (length chunk : Nat) : Nat :=
  (length + chunk) / chunk * chunk

/-- Least multiple of `chunk` that is at least `length`. -/
def roomFor (length chunk : Nat) : Nat :=
  (length + (chunk - 1)) / chunk * chunk

def allocate (length chunk : Nat) : Block where
  storage := Content.zeros (roomAbove length (chunkOrDefault chunk))
  length := length
  chunk := chunkOrDefault chunk

def ofBytes (bytes : Bytes) (chunk : Nat) : Block :=
  let block := allocate bytes.length chunk
  { block with storage := block.storage.write 0 bytes }

def capacity (block : Block) : Nat :=
  block.storage.size

def isEmpty (block : Block) : Bool :=
  block.length == 0

/-- The part of the storage that the block shows. -/
def content (block : Block) : Content :=
  block.storage.resize block.length

def data (block : Block) : Bytes :=
  block.content.toBytes

/-- At most `count` bytes of the data from `start` on. -/
def slice (block : Block) (start count : Nat) : Bytes :=
  block.content.read start count

/-- The byte at an index of the data; zero past the end. -/
def byteAt (block : Block) (index : Nat) : UInt8 :=
  (block.slice index 1).headD 0

inductive Reservation where
  | fits
  | grown (block : Block)
  | denied

/-- Makes room for `needed` bytes, by whole chunks, where growth is allowed. -/
def reserve (block : Block) (needed : Nat) (canGrow : Bool) : Reservation :=
  if needed ≤ block.capacity then .fits
  else if canGrow then
    .grown { block with storage := block.storage.resize (roomFor needed block.chunk) }
  else .denied

/-- Writes bytes into the storage, which has room for them, and shows all that was written. -/
def put (block : Block) (start : Nat) (bytes : Bytes) : Block :=
  { block with
    storage := block.storage.write start bytes
    length := max block.length (start + bytes.length) }

/-- Like `put`, and refuses a write that ends past the capacity. -/
def writeAt (block : Block) (start : Nat) (bytes : Bytes) : Except Breach Block :=
  if start + bytes.length ≤ block.capacity then .ok (block.put start bytes)
  else .error (.writePastCapacity (start + bytes.length) block.capacity)

/-- Shows more of the storage, at most all of it. -/
def extend (block : Block) (length : Nat) : Block :=
  if block.length < length then { block with length := min length block.capacity } else block

/-- Sets data length and chunk. A negative argument keeps the present setting, chunk zero is the
default. The capacity is computed anew, and what lies past the data is zeroed. -/
def resize (block : Block) (length chunk : Int) : Block :=
  let newLength := if length < 0 then block.length else length.toNat
  let newChunk := if chunk < 0 then block.chunk else chunkOrDefault chunk.toNat
  { storage := (block.storage.resize newLength).resize (roomAbove newLength newChunk)
    length := newLength
    chunk := newChunk }

def truncated : Block where
  storage := Content.zeros 1
  length := 0
  chunk := 1

/-- Fills `count` bytes from `start`, as far as the data reaches. -/
def fill (block : Block) (byte : UInt8) (start count : Nat) : Block :=
  let first := min start block.length
  let last := min (first + count) block.length
  { block with storage := block.storage.write first (List.replicate (last - first) byte) }

def previewOctets : Nat := 30

def preview (block : Block) : String :=
  Bytes.hex (block.slice 0 previewOctets) ++ (if block.length > previewOctets then "..." else "")

def display (block : Block) : String :=
  "chunksize = " ++ Positional.decimal block.chunk ++ ", maxsize = "
    ++ Positional.decimal block.capacity ++ ", datalen = " ++ Positional.decimal block.length
    ++ (if block.length > 0 then "\n\t" ++ block.preview else "")

def same (left right : Block) : Bool :=
  left.content.same right.content

theorem slice_eq (block : Block) (start count : Nat) :
    block.slice start count = (block.data.drop start).take count := by
  rw [slice, Content.read_eq, data]

theorem byteAt_eq (block : Block) (index : Nat) : block.byteAt index = block.data.getD index 0 := by
  rw [byteAt, slice_eq, List.headD_eq_head?_getD, List.head?_take, List.head?_drop]
  simp [List.getD_eq_getElem?_getD]

theorem same_iff (left right : Block) : left.same right = true ↔ left.data = right.data :=
  Content.same_iff left.content right.content

end Block

end Calculator
