import Calculator.Builtin.Registry
import Calculator.Number.Literal
import Calculator.Pool.Stored
import Calculator.Value.Matrix
import Calculator.Value.Ownership

/-!
# Sessions

A session is a machine with variables and the heap of their payloads. Variables and the slots of both
pools hold handles; storing a value makes its variable an owner of the payloads in it, and what the
variable held before is let go of. A text is written through one owner at a time, and isolated first
where it has others.
-/

namespace Calculator

/-- Where a block is kept. -/
inductive BlockPlace where
  | stored (name : String)
  | named (id : BlockId)
  deriving DecidableEq, Repr

structure Session where
  bindings : List (String × Value)
  machine : Machine
  heap : Heap

namespace Session

/-- The heap of a machine that is new. The first marks belong to the preloaded constants and
literals. -/
def heapOf (machine : Machine) : Heap :=
  let owned := machine.constants.payloads.map Part.number ++ machine.literals.payloads.map Part.text
  { numbers := .empty, texts := .empty, next := Constants.preloaded.length : Heap }.holdAll owned

def start (config : Config) (host : Host) : Session :=
  let machine := Machine.new config host
  { bindings := []
    machine := { machine with
      constants := machine.constants.map Payload.handle
      literals := machine.literals.map Payload.handle }
    heap := heapOf machine }

/-- What a variable holds. -/
def stored? (session : Session) (name : String) : Option Value :=
  session.bindings.lookup name

/-- The value of a variable. -/
def value? (session : Session) (name : String) : Option Value :=
  (session.stored? name).map session.heap.load

def constants (session : Session) : Constants :=
  session.machine.constants.load session.heap.numbers

def literals (session : Session) : Literals :=
  session.machine.literals.load session.heap.texts

def setVariable (name : String) (value : Value) : List (String × Value) → List (String × Value)
  | [] => [(name, value)]
  | entry :: rest =>
      if entry.1 == name then (name, value) :: rest else entry :: setVariable name value rest

def held (session : Session) (name : String) : List Part :=
  ((session.stored? name).map Value.parts).getD []

/-- Stores a value, and then lets go of what its variable held. -/
def assign (session : Session) (name : String) (value : Value) : Session :=
  let (taken, heap) := session.heap.take value
  { session with
    bindings := setVariable name taken session.bindings
    heap := heap.releaseAll (session.held name) }

def erase (session : Session) (name : String) : Session :=
  { session with
    bindings := session.bindings.filter fun entry => entry.1 != name
    heap := session.heap.releaseAll (session.held name) }

/-- The block in a place, if there is one. -/
def block? (session : Session) : BlockPlace → Option Block
  | .stored name =>
      match session.value? name with
      | some ⟨.block block, _⟩ => some block
      | _ => none
  | .named id => session.machine.blocks.storage? id

/-- Replaces the block in a place; a variable keeps its protection. -/
def setBlock (session : Session) (place : BlockPlace) (block : Block) : Session :=
  match place with
  | .stored name =>
      match session.value? name with
      | some value => session.assign name { value with data := .block block }
      | none => session
  | .named id =>
      { session with
        machine := { session.machine with
          blocks := session.machine.blocks.setStorage id (some block) } }

/-- Elements of a new matrix. They all share one zero. -/
def zeroMatrix? (session : Session) (bounds : List Bounds) :
    Except Matrix.Overflow (Option (List Value × Session)) := do
  let (zero, next) := (Value.ofInt 0).place session.heap.next
  let slots ← Matrix.zeroed? bounds zero
  return slots.map fun slots => (slots, { session with heap := { session.heap with next } })

/-- Links of the number or text that a value is. -/
def links? (session : Session) (value : Value) : Option Nat :=
  match value.data with
  | .number payload => some ((payload.mark.map session.heap.numbers.links).getD 0)
  | .text payload => some ((payload.mark.map session.heap.texts.links).getD 0)
  | _ => none

/-- Whether two numbers, or two texts, are one payload. -/
def identical? (left right : Value) : Option Bool :=
  match left.data, right.data with
  | .number left, .number right => some (left.identical right)
  | .text left, .text right => some (left.identical right)
  | _, _ => none

/-- Nobody but the owner that is about to change, if it counts as one, owns the text of a value. -/
def isExclusive (session : Session) (value : Value) (stored : Bool) : Bool :=
  match value.data with
  | .text payload =>
      match payload.mark with
      | some mark => session.heap.texts.links mark ≤ (if stored then 1 else 0)
      | none => true
  | _ => true

/-- Writes a text that a variable holds, be it all of the variable or deep inside; `around` is what the
variable holds around the text. -/
def writeText (session : Session) (name : String) (around : Payload Bytes → Value)
    (text : Payload Bytes) (content : Bytes) : Session :=
  let (own, heap) := session.heap.isolate text
  { session with
    bindings := setVariable name ((around { own with content }).visit Visit.handles) session.bindings
    heap := heap.writeText own content }

/-- Changes one byte of the text in a variable. Past the end no byte is changed, and the answer is
false. -/
def setTextByte (session : Session) (name : String) (index : Nat) (byte : UInt8) :
    Bool × Session :=
  match session.stored? name with
  | some ⟨.text text, protection⟩ =>
      let content := (session.heap.texts.read text).content
      (index < content.length,
        session.writeText name (fun own => ⟨.text own, protection⟩) text (content.set index byte))
  | _ => (false, session)

/-- Puts a value that was changed in place back in its variable. A text that has kept its mark is
written where it is. -/
def putBack (session : Session) (name : String) (value : Value) : Session :=
  match value.data with
  | .text text =>
      let heap := session.heap.writeText text text.content
      ({ session with heap } : Session).assign name value
  | _ => session.assign name value

/-- Changes a destination, which is in a variable where there is a holder. Whatever came of the change,
the destination is answered as it is then, and that is what its variable holds. -/
def alter (session : Session) (change : Copy.Change) (destination : Value)
    (holder : Option String) : Except CopyError Unit × Value × Session :=
  let exclusive := session.isExclusive destination holder.isSome
  let (result, scene) := change.program exclusive { destination, machine := session.machine }
  let session := { session with machine := scene.machine }
  match holder with
  | some name => (result, scene.destination, session.putBack name scene.destination)
  | none => (result, scene.destination, session)

def call (session : Session) (name : String) (arguments : List Value) :
    Except CallError Value × Session :=
  let (result, machine) := Registry.standard.call name arguments session.machine
  (result, { session with machine })

/-- Interns a number. -/
def addConstant (session : Session) (payload : Payload Number) : Nat × Session :=
  let (payload, next) := payload.place session.heap.next
  let (index, constants, numbers) :=
    session.machine.constants.internStored session.heap.numbers payload
  (index,
    { session with
      machine := { session.machine with constants }
      heap := { session.heap with numbers, next } })

/-- Interns the number of a literal. -/
def addConstantLiteral (session : Session) (literal : String) :
    Except NumberError Nat × Session :=
  match Number.parse literal with
  | .ok number =>
      let (index, session) := session.addConstant (.fresh number)
      (.ok index, session)
  | .error error => (.error error, session)

def linkConstant (session : Session) (index : Nat) : Except Breach Session := do
  let constants ← session.machine.constants.link index
  return { session with machine := { session.machine with constants } }

def releaseConstant (session : Session) (index : Nat) : Except Breach Session := do
  let (constants, numbers) ←
    session.machine.constants.releaseStored session.heap.numbers index
  return { session with
    machine := { session.machine with constants }
    heap := { session.heap with numbers } }

/-- Interns a text. -/
def addLiteral (session : Session) (payload : Payload Bytes) : Nat × Session :=
  let (payload, next) := payload.place session.heap.next
  let (index, literals, texts) :=
    session.machine.literals.internStored session.heap.texts payload
  (index,
    { session with
      machine := { session.machine with literals }
      heap := { session.heap with texts, next } })

def linkLiteral (session : Session) (index : Nat) : Except Breach Session := do
  let literals ← session.machine.literals.link index
  return { session with machine := { session.machine with literals } }

def releaseLiteral (session : Session) (index : Nat) : Except Breach Session := do
  let (literals, texts) ← session.machine.literals.releaseStored session.heap.texts index
  return { session with
    machine := { session.machine with literals }
    heap := { session.heap with texts } }

/-- The host after the session: all output is written out. -/
def finish (session : Session) : Host :=
  session.machine.files.shutdown.host

end Session

end Calculator
