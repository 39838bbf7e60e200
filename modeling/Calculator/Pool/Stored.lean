import Calculator.Heap
import Calculator.Pool.Basic

/-!
# Pools over a store

The slots of a pool are owners like any other: they hold handles, and the payloads are in a store. A new
slot takes hold of what it is handed; a slot that falls vacant lets go of what it had.
-/

namespace Calculator.Pool

variable {α : Type} [Inhabited α]

/-- The pool with the payloads that its slots stand for. -/
def load (pool : Pool (Payload α)) (store : Store α) : Pool (Payload α) :=
  pool.map store.read

/-- Interns a marked payload. One that is there already is not held once more. -/
def internStored [Internable (Payload α)] (pool : Pool (Payload α)) (store : Store α)
    (payload : Payload α) : Nat × Pool (Payload α) × Store α :=
  let loaded := pool.load store
  let (index, interned) := loaded.intern payload
  let known := loaded.slots.any (Slot.matchesPayload payload)
  (index, interned.map Payload.handle, if known then store else store.hold payload)

/-- Drops one link of a slot. -/
def releaseStored (pool : Pool (Payload α)) (store : Store α) (index : Nat) :
    Except Breach (Pool (Payload α) × Store α) := do
  let payload ← pool.get index
  let released ← pool.release index
  return (released, if released.isHeld index then store else store.release payload)

end Calculator.Pool
