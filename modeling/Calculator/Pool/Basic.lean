import Calculator.Breach

/-!
# Interning pools

Compiled code refers to its literals by index. A pool hands out one index for all equal payloads and
counts the links to it. A slot without links is vacant: the next new payload takes the lowest vacant
slot, and vacant slots at the top are trimmed off. The index of a held slot never changes.
-/

namespace Calculator

/-- Payloads that can be interned. `rejects` is a cheap test that only differing payloads pass. -/
class Internable (α : Type) where
  rejects : α → α → Bool
  same : α → α → Bool

inductive Slot (α : Type) where
  | vacant
  | held (payload : α) (links : Nat) (pinned : Bool)
  deriving DecidableEq, Repr

namespace Slot

variable {α : Type}

def isVacant : Slot α → Bool
  | vacant => true
  | held _ _ _ => false

def payload? : Slot α → Option α
  | vacant => none
  | held payload _ _ => some payload

def links : Slot α → Nat
  | vacant => 0
  | held _ links _ => links

def map {β : Type} (change : α → β) : Slot α → Slot β
  | vacant => vacant
  | held payload links pinned => held (change payload) links pinned

def matchesPayload [Internable α] (wanted : α) : Slot α → Bool
  | vacant => false
  | held payload _ _ => !Internable.rejects payload wanted && Internable.same payload wanted

def addLink : Slot α → Slot α
  | vacant => vacant
  | held payload links pinned => held payload (links + 1) pinned

/-- Drops one link. A slot without links becomes vacant, a pinned one keeps its last link. -/
def dropLink : Slot α → Slot α
  | vacant => vacant
  | held payload links true => held payload (max (links - 1) 1) true
  | held payload links false =>
      if links ≤ 1 then vacant else held payload (links - 1) false

end Slot

/-- The slots in index order; `label` names a payload in messages. -/
structure Pool (α : Type) where
  slots : List (Slot α)
  chunk : Nat
  capacity : Nat
  label : String

namespace Pool

variable {α : Type}

def empty (label : String) (chunk : Nat) : Pool α where
  slots := []
  chunk := max chunk 1
  capacity := max chunk 1
  label := label

/-- Adds a slot at the top; a full pool grows by one chunk first. -/
def push (pool : Pool α) (slot : Slot α) : Pool α :=
  { pool with
    slots := pool.slots ++ [slot]
    capacity := if pool.slots.length = pool.capacity then pool.capacity + pool.chunk
      else pool.capacity }

def pushPinned (pool : Pool α) (payload : α) : Pool α :=
  pool.push (.held payload 1 true)

/-- Links the slot that holds an equal payload, or else stores the payload in the lowest vacant slot
or at the top. Returns the index. -/
def intern [Internable α] (pool : Pool α) (payload : α) : Nat × Pool α :=
  match pool.slots.findIdx? (Slot.matchesPayload payload) with
  | some index => (index, { pool with slots := pool.slots.modify index Slot.addLink })
  | none =>
      match pool.slots.findIdx? Slot.isVacant with
      | some index => (index, { pool with slots := pool.slots.set index (.held payload 1 false) })
      | none => (pool.slots.length, pool.push (.held payload 1 false))

def get (pool : Pool α) (index : Nat) : Except Breach α :=
  match pool.slots[index]? with
  | some (.held payload _ _) => .ok payload
  | some .vacant => .error (.freedSlot pool.label index)
  | none => .error (.badIndex pool.label index)

def link (pool : Pool α) (index : Nat) : Except Breach (Pool α) := do
  let _ ← pool.get index
  return { pool with slots := pool.slots.modify index Slot.addLink }

def trim (slots : List (Slot α)) : List (Slot α) :=
  (slots.reverse.dropWhile Slot.isVacant).reverse

/-- Drops one link of a held slot; a pool whose top slot falls vacant is trimmed. -/
def release (pool : Pool α) (index : Nat) : Except Breach (Pool α) := do
  let _ ← pool.get index
  let slots := pool.slots.modify index Slot.dropLink
  return { pool with slots := if index + 1 = slots.length then trim slots else slots }

/-- Links of a slot; a vacant slot has none. -/
def links (pool : Pool α) (index : Nat) : Except Breach Nat :=
  match pool.slots[index]? with
  | some slot => .ok slot.links
  | none => .error (.badIndex pool.label index)

def isHeld (pool : Pool α) (index : Nat) : Bool :=
  match pool.slots[index]? with
  | some slot => !slot.isVacant
  | none => false

def size (pool : Pool α) : Nat :=
  pool.slots.length

def isEmpty (pool : Pool α) : Bool :=
  pool.slots.isEmpty

def heldCount (pool : Pool α) : Nat :=
  pool.slots.countP (fun slot => !slot.isVacant)

def map {β : Type} (change : α → β) (pool : Pool α) : Pool β :=
  { pool with slots := pool.slots.map (Slot.map change) }

def payloads (pool : Pool α) : List α :=
  pool.slots.filterMap Slot.payload?

def entries (pool : Pool α) : List (Nat × α × Nat) :=
  pool.slots.zipIdx.filterMap fun (slot, index) =>
    slot.payload?.map fun payload => (index, payload, slot.links)

end Pool

end Calculator
