/-!
# Payloads

Numbers and texts can have several owners: variables, elements of containers, slots of pools. An owned
payload is kept once, under a mark, and its owners hold that mark. A payload that no owner holds yet,
such as the result of a computation on its way to a variable, has no mark.
-/

namespace Calculator

/-- Tells payloads apart that have the same content. -/
abbrev Mark := Nat

structure Payload (α : Type) where
  content : α
  mark : Option Mark := none

namespace Payload

variable {α : Type}

def fresh (content : α) : Payload α := { content }

/-- Both have owners and are one payload. -/
def identical (left right : Payload α) : Bool :=
  left.mark.isSome && left.mark == right.mark

/-- Gives an unmarked payload the mark `next`, and returns the mark to use after it. -/
def place (next : Mark) (payload : Payload α) : Payload α × Mark :=
  match payload.mark with
  | some _ => (payload, next)
  | none => ({ payload with mark := some next }, next + 1)

/-- What an owner holds: the mark alone. -/
def handle [Inhabited α] (payload : Payload α) : Payload α :=
  { payload with content := default }

theorem place_content (next : Mark) (payload : Payload α) :
    (payload.place next).1.content = payload.content := by
  unfold place
  split <;> rfl

end Payload

end Calculator
