import Calculator.Copy.Error
import Calculator.Number.Digits

/-!
# Sources of a copy

What a value offers to a copy depends on where the copy goes. A source is a list of units: bytes,
words of a numerator, or elements. A copy selects the units from an index on, all of them or a given
number at most.
-/

namespace Calculator.Copy

/-- How many units from `start` on a copy of `count` takes; a negative count takes all. -/
def clamp (length start : Nat) (count : Int) : Nat :=
  if count < 0 then length - start else min (length - start) count.toNat

def select {α : Type} (units : List α) (start : Nat) (count : Int) : List α :=
  (units.drop start).take (clamp units.length start count)

/-- The block that a value is or stands for. -/
def blockOf (blocks : NamedBlocks) (value : Value) : Except CopyError Block :=
  match value.data with
  | .block block => .ok block
  | .namedBlock id =>
      match blocks.storage? id with
      | some block => .ok block
      | none => .error .freedSource
  | _ => .error (.badSourceType value.kind)

/-- The bytes that a copy takes from a block. -/
def selectBytes (block : Block) (start : Nat) (count : Int) : Bytes :=
  block.slice start (clamp block.length start count)

/-- The bytes from an octet up to a NUL or the end. -/
def octetRun (blocks : NamedBlocks) (target : OctetTarget) (index : Nat) :
    Except CopyError Bytes :=
  match target with
  | .text payload => .ok (payload.content.nulRun index)
  | .namedBlock id =>
      match blocks.storage? id with
      | some block => .ok ((block.slice index (block.length - index)).nulRun 0)
      | none => .error .freedSource

/-- The byte that an element contributes, where named blocks are looked up. -/
def octetOf (blocks : NamedBlocks) (value : Value) : UInt8 :=
  match value.data with
  | .octet (.namedBlock id) index =>
      match blocks.storage? id with
      | some block => block.byteAt index
      | none => 0
  | .namedBlock id =>
      match blocks.storage? id with
      | some block => block.byteAt 0
      | none => 0
  | _ => value.octet

/-- The bytes that a copy to a block writes. A text brings a NUL behind its bytes, an octet has the
NUL of its run among its units, and a number has four bytes to the unit. -/
def bytesForBlock (blocks : NamedBlocks) (source : Value) (start : Nat) (count : Int) :
    Except CopyError Bytes :=
  match source.data with
  | .text payload =>
      let bytes := select payload.content start count
      .ok (if bytes.isEmpty then [] else bytes ++ [0])
  | .octet target index => do
      let run ← octetRun blocks target index
      return select (run ++ [0]) start count
  | .number payload =>
      .ok (Word.image (select payload.content.numeratorWords start count))
  | .matrix _ slots => .ok ((select slots start count).map (octetOf blocks))
  | _ => do
      return selectBytes (← blockOf blocks source) start count

/-- The bytes that a copy to a text writes. -/
def bytesForText (blocks : NamedBlocks) (source : Value) (start : Nat) (count : Int) :
    Except CopyError Bytes :=
  match source.data with
  | .text payload => .ok (select payload.content start count)
  | .octet target index => do
      let run ← octetRun blocks target index
      return select run start count
  | _ => do
      return selectBytes (← blockOf blocks source) start count

/-- The elements that a copy to a matrix or list stores: those of a container, or the bytes of a block
as numbers. -/
def elements (blocks : NamedBlocks) (source : Value) (start : Nat) (count : Int) :
    Except CopyError (List Value) :=
  match source.data with
  | .matrix _ slots => .ok (select slots start count)
  | .list items => .ok (select items start count)
  | _ => do
      let bytes := selectBytes (← blockOf blocks source) start count
      return bytes.map fun byte => Value.ofInt byte.toNat

end Calculator.Copy
