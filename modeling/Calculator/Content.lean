import Calculator.Bytes

/-!
# Contents of files and blocks

What a file or a block stores is a sequence of extents: bytes that were written, and holes that read
as zeros. A hole costs nothing, however long it is, and what was written is found by its place.
`toBytes` is the content as a plain byte string: reading is taking a stretch of it, and resizing cuts
it or puts zeros behind it.
-/

namespace Calculator

inductive Extent where
  | data (bytes : Array UInt8)
  | hole (length : Nat)
  deriving DecidableEq, Repr

namespace Extent

def length : Extent → Nat
  | data bytes => bytes.size
  | hole length => length

def toBytes : Extent → Bytes
  | data bytes => bytes.toList
  | hole length => Bytes.zeros length

def take (count : Nat) : Extent → Extent
  | data bytes => data (bytes.extract 0 count)
  | hole length => hole (min count length)

def drop (count : Nat) : Extent → Extent
  | data bytes => data (bytes.extract count bytes.size)
  | hole length => hole (length - count)

def slice (start count : Nat) : Extent → Bytes
  | data bytes => (bytes.extract start (start + count)).toList
  | hole length => Bytes.zeros (min count (length - start))

@[specialize]
def fold {α : Type} (step : α → UInt8 → α) (initial : α) : Extent → α
  | data bytes => bytes.foldl step initial
  | hole length => Nat.repeat (fun total => step total 0) length initial

theorem length_toBytes (extent : Extent) : extent.toBytes.length = extent.length := by
  cases extent <;> simp [toBytes, length, Bytes.zeros]

theorem toBytes_take (count : Nat) (extent : Extent) :
    (extent.take count).toBytes = extent.toBytes.take count := by
  cases extent <;> simp [toBytes, take, Bytes.zeros]

theorem toBytes_drop (count : Nat) (extent : Extent) :
    (extent.drop count).toBytes = extent.toBytes.drop count := by
  cases extent with
  | data bytes => simp [toBytes, drop, ← Array.length_toList, List.take_of_length_le]
  | hole length => simp [toBytes, drop, Bytes.zeros]

theorem slice_eq (start count : Nat) (extent : Extent) :
    extent.slice start count = (extent.toBytes.drop start).take count := by
  cases extent <;> simp [toBytes, slice, Bytes.zeros]

end Extent

structure Content where
  extents : List Extent
  deriving DecidableEq, Repr

namespace Content

/-- Most bytes that a file can hold: as many blocks of 4096 bytes as a 32-bit word counts. -/
def maxSize : Nat := 17592186040320

def empty : Content := ⟨[]⟩

def zeros (length : Nat) : Content :=
  if length = 0 then empty else ⟨[.hole length]⟩

def ofBytes (bytes : Bytes) : Content :=
  if bytes.isEmpty then empty else ⟨[.data bytes.toArray]⟩

def toBytes (content : Content) : Bytes :=
  content.extents.flatMap Extent.toBytes

def size (content : Content) : Nat :=
  content.extents.foldl (fun total extent => total + extent.length) 0

/-- The extents of the first `count` bytes. -/
def takeExtents : Nat → List Extent → List Extent
  | _, [] => []
  | count, extent :: rest =>
      let length := extent.length
      if count = 0 then []
      else if count < length then [extent.take count]
      else extent :: takeExtents (count - length) rest

/-- The extents after the first `count` bytes. -/
def dropExtents : Nat → List Extent → List Extent
  | _, [] => []
  | count, extent :: rest =>
      let length := extent.length
      if count < length then extent.drop count :: rest
      else dropExtents (count - length) rest

/-- At most `count` bytes of the extents, from `start` on. -/
def readExtents : List Extent → Nat → Nat → Bytes
  | [], _, _ => []
  | extent :: rest, start, count =>
      let length := extent.length
      if length ≤ start then readExtents rest (start - length) count
      else if count ≤ length - start then extent.slice start count
      else extent.slice start (length - start) ++ readExtents rest 0 (count - (length - start))

def read (content : Content) (start count : Nat) : Bytes :=
  readExtents content.extents start count

/-- Cuts the content, or extends it by a hole, to `length` bytes. -/
def resize (content : Content) (length : Nat) : Content :=
  let size := content.size
  if length ≤ size then ⟨takeExtents length content.extents⟩
  else ⟨content.extents ++ [.hole (length - size)]⟩

/-- Writes bytes from `start` on; a gap before them becomes a hole. -/
def write (content : Content) (start : Nat) (bytes : Bytes) : Content :=
  if bytes.isEmpty then content
  else
    ⟨(content.resize start).extents ++ .data bytes.toArray
      :: dropExtents (start + bytes.length) content.extents⟩

theorem foldl_length (total : Nat) (extents : List Extent) :
    extents.foldl (fun total extent => total + extent.length) total
      = total + (extents.flatMap Extent.toBytes).length := by
  induction extents generalizing total with
  | nil => simp
  | cons extent rest ih =>
      rw [List.foldl_cons, ih, List.flatMap_cons, List.length_append, Extent.length_toBytes]
      omega

theorem size_eq (content : Content) : content.size = content.toBytes.length := by
  rw [size, foldl_length, toBytes]
  omega

theorem readExtents_eq (extents : List Extent) (start count : Nat) :
    readExtents extents start count
      = ((extents.flatMap Extent.toBytes).drop start).take count := by
  induction extents generalizing start count with
  | nil => simp [readExtents]
  | cons extent rest ih =>
      have known := Extent.length_toBytes extent
      simp only [readExtents, List.flatMap_cons]
      split
      · rename_i beyond
        have passed : extent.toBytes.drop start = [] := List.drop_eq_nil_of_le (by omega)
        rw [ih, List.drop_append, passed, known, List.nil_append]
      · split
        · rename_i inside enough
          rw [Extent.slice_eq, List.drop_append_of_le_length (by omega),
            List.take_append_of_le_length (by simp; omega)]
        · rename_i inside short
          have held : (extent.toBytes.drop start).length = extent.length - start := by
            rw [List.length_drop, known]
          rw [Extent.slice_eq, ih, List.drop_append_of_le_length (by omega), List.take_append, held,
            List.drop_zero, List.take_of_length_le (Nat.le_of_eq held),
            List.take_of_length_le (by omega : (extent.toBytes.drop start).length ≤ count)]

theorem read_eq (content : Content) (start count : Nat) :
    content.read start count = (content.toBytes.drop start).take count := by
  rw [read, readExtents_eq, toBytes]

/-- Takes the bytes one by one, from the first to the last. -/
@[specialize]
def fold {α : Type} (step : α → UInt8 → α) (initial : α) (content : Content) : α :=
  content.extents.foldl (fun total extent => extent.fold step total) initial

def pieceSize : Nat := 8192

def same (left right : Content) : Bool :=
  left.size == right.size
    && (List.range (left.size / pieceSize + 1)).all fun piece =>
      left.read (pieceSize * piece) pieceSize == right.read (pieceSize * piece) pieceSize

theorem toBytes_zeros (length : Nat) : (zeros length).toBytes = Bytes.zeros length := by
  rw [zeros]
  split
  · rename_i nothing
    rw [nothing]
    rfl
  · simp [toBytes, Extent.toBytes]

theorem flatMap_takeExtents (count : Nat) (extents : List Extent) :
    (takeExtents count extents).flatMap Extent.toBytes
      = (extents.flatMap Extent.toBytes).take count := by
  induction extents generalizing count with
  | nil => simp [takeExtents]
  | cons extent rest ih =>
      have known := Extent.length_toBytes extent
      simp only [takeExtents, List.flatMap_cons]
      split
      · rename_i nothing
        rw [nothing]
        rfl
      · split
        · rename_i inside
          rw [List.flatMap_cons, List.flatMap_nil, List.append_nil, Extent.toBytes_take,
            List.take_append_of_le_length (by omega)]
        · rename_i beyond
          rw [List.flatMap_cons, ih, List.take_append, known,
            List.take_of_length_le (by omega : extent.toBytes.length ≤ count)]

theorem flatMap_dropExtents (count : Nat) (extents : List Extent) :
    (dropExtents count extents).flatMap Extent.toBytes
      = (extents.flatMap Extent.toBytes).drop count := by
  induction extents generalizing count with
  | nil => simp [dropExtents]
  | cons extent rest ih =>
      have known := Extent.length_toBytes extent
      simp only [dropExtents, List.flatMap_cons]
      split
      · rename_i inside
        rw [List.flatMap_cons, Extent.toBytes_drop, List.drop_append_of_le_length (by omega)]
      · rename_i beyond
        have passed : extent.toBytes.drop count = [] := List.drop_eq_nil_of_le (by omega)
        rw [ih, List.drop_append, passed, known, List.nil_append]

theorem toBytes_resize (content : Content) (length : Nat) :
    (content.resize length).toBytes
      = content.toBytes.take length ++ Bytes.zeros (length - content.toBytes.length) := by
  have known := size_eq content
  simp only [resize]
  split
  · rename_i shorter
    rw [toBytes, flatMap_takeExtents, ← toBytes,
      show length - content.toBytes.length = 0 by omega]
    simp [Bytes.zeros]
  · rename_i longer
    rw [toBytes, List.flatMap_append, ← toBytes, known,
      List.take_of_length_le (by omega : content.toBytes.length ≤ length)]
    simp [Extent.toBytes]

theorem toBytes_write (content : Content) (start : Nat) (bytes : Bytes)
    (inside : start ≤ content.toBytes.length) :
    (content.write start bytes).toBytes = content.toBytes.overwrite start bytes := by
  rw [write]
  split
  · rename_i nothing
    rw [List.isEmpty_iff.mp nothing, Bytes.overwrite_nil]
  · rw [toBytes, List.flatMap_append, List.flatMap_cons, flatMap_dropExtents, ← toBytes, ← toBytes,
      toBytes_resize, show start - content.toBytes.length = 0 by omega, Bytes.overwrite]
    simp [Bytes.zeros, Extent.toBytes]

theorem same_iff (left right : Content) :
    left.same right = true ↔ left.toBytes = right.toBytes := by
  rw [same, Bool.and_eq_true, beq_iff_eq, List.all_eq_true]
  constructor
  · rintro ⟨lengths, pieces⟩
    rw [size_eq, size_eq] at lengths
    apply List.ext_getElem?
    intro index
    by_cases inside : index < left.toBytes.length
    · have quotient := Nat.div_add_mod index pieceSize
      have remainder : index % pieceSize < pieceSize := Nat.mod_lt _ (by decide)
      have place : index / pieceSize < left.size / pieceSize + 1 := by
        rw [size_eq]
        exact Nat.lt_succ_of_le (Nat.div_le_div_right (Nat.le_of_lt inside))
      have equal := pieces (index / pieceSize) (List.mem_range.mpr place)
      rw [beq_iff_eq, read_eq, read_eq] at equal
      have byte := congrArg (fun bytes : Bytes => bytes[index % pieceSize]?) equal
      simp only [List.getElem?_take_of_lt remainder, List.getElem?_drop, quotient] at byte
      exact byte
    · rw [List.getElem?_eq_none (by omega), List.getElem?_eq_none (by omega)]
  · intro equal
    refine ⟨by rw [size_eq, size_eq, equal], ?_⟩
    intro piece _
    rw [beq_iff_eq, read_eq, read_eq, equal]

end Content

end Calculator
