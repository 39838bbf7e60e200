import Calculator.Heap
import Calculator.Value.Basic

/-!
# Owners of payloads

A value owns the number and text payloads inside it, at any depth. `parts` lists them, one for each
place that holds a payload, in the order in which `place` marks those that have no owner yet. A stored
value holds handles; `take` makes them, and `load` reads what they stand for.
-/

namespace Calculator

/-- A place that owns a payload. -/
inductive Part where
  | number (payload : Payload Number)
  | text (payload : Payload Bytes)

mutual

def Value.parts : Value → List Part
  | ⟨data, _⟩ => Value.partsOfData data
termination_by structural value => value

def Value.partsOfData : Data Value → List Part
  | .number payload => [.number payload]
  | .complex re im => [.number re, .number im]
  | .text payload => [.text payload]
  | .octet (.text payload) _ => [.text payload]
  | .matrix _ slots => Value.partsOfList slots
  | .list items => Value.partsOfList items
  | .association entries => Value.partsOfEntries entries
  | _ => []
termination_by structural data => data

def Value.partsOfList : List Value → List Part
  | [] => []
  | value :: rest => Value.parts value ++ Value.partsOfList rest
termination_by structural values => values

def Value.partsOfEntries : List (List Value × Value) → List Part
  | [] => []
  | entry :: rest => Value.partsOfEntry entry ++ Value.partsOfEntries rest
termination_by structural entries => entries

def Value.partsOfEntry : List Value × Value → List Part
  | (key, value) => Value.partsOfList key ++ Value.parts value
termination_by structural entry => entry

end

def OctetTarget.place (next : Mark) : OctetTarget → OctetTarget × Mark
  | text payload => ((.text (payload.place next).1), (payload.place next).2)
  | namedBlock id => (.namedBlock id, next)

mutual

/-- Marks the payloads of a value that have no mark, from `next` on; returns the mark to use after
it. -/
def Value.place (next : Mark) : Value → Value × Mark
  | ⟨data, protection⟩ =>
      let (placed, next) := Value.placeData next data
      (⟨placed, protection⟩, next)
termination_by structural value => value

def Value.placeData (next : Mark) : Data Value → Data Value × Mark
  | .number payload =>
      let (payload, next) := payload.place next
      (.number payload, next)
  | .complex re im =>
      let (re, next) := re.place next
      let (im, next) := im.place next
      (.complex re im, next)
  | .text payload =>
      let (payload, next) := payload.place next
      (.text payload, next)
  | .octet target index =>
      let (target, next) := target.place next
      (.octet target index, next)
  | .matrix bounds slots =>
      let (slots, next) := Value.placeList next slots
      (.matrix bounds slots, next)
  | .list items =>
      let (items, next) := Value.placeList next items
      (.list items, next)
  | .association entries =>
      let (entries, next) := Value.placeEntries next entries
      (.association entries, next)
  | data => (data, next)
termination_by structural data => data

def Value.placeList (next : Mark) : List Value → List Value × Mark
  | [] => ([], next)
  | value :: rest =>
      let (value, next) := Value.place next value
      let (rest, next) := Value.placeList next rest
      (value :: rest, next)
termination_by structural values => values

def Value.placeEntries (next : Mark) :
    List (List Value × Value) → List (List Value × Value) × Mark
  | [] => ([], next)
  | entry :: rest =>
      let (entry, next) := Value.placeEntry next entry
      let (rest, next) := Value.placeEntries next rest
      (entry :: rest, next)
termination_by structural entries => entries

def Value.placeEntry (next : Mark) : List Value × Value → (List Value × Value) × Mark
  | (key, value) =>
      let (key, next) := Value.placeList next key
      let (value, next) := Value.place next value
      ((key, value), next)
termination_by structural entry => entry

end

/-- Something that is done with each payload. -/
structure Visit where
  number : Payload Number → Payload Number
  text : Payload Bytes → Payload Bytes

def Visit.target (visit : Visit) : OctetTarget → OctetTarget
  | .text payload => .text (visit.text payload)
  | .namedBlock id => .namedBlock id

mutual

def Value.visit (visit : Visit) : Value → Value
  | ⟨data, protection⟩ => ⟨Value.visitData visit data, protection⟩
termination_by structural value => value

def Value.visitData (visit : Visit) : Data Value → Data Value
  | .number payload => .number (visit.number payload)
  | .complex re im => .complex (visit.number re) (visit.number im)
  | .text payload => .text (visit.text payload)
  | .octet target index => .octet (visit.target target) index
  | .matrix bounds slots => .matrix bounds (Value.visitList visit slots)
  | .list items => .list (Value.visitList visit items)
  | .association entries => .association (Value.visitEntries visit entries)
  | data => data
termination_by structural data => data

def Value.visitList (visit : Visit) : List Value → List Value
  | [] => []
  | value :: rest => Value.visit visit value :: Value.visitList visit rest
termination_by structural values => values

def Value.visitEntries (visit : Visit) :
    List (List Value × Value) → List (List Value × Value)
  | [] => []
  | entry :: rest => Value.visitEntry visit entry :: Value.visitEntries visit rest
termination_by structural entries => entries

def Value.visitEntry (visit : Visit) : List Value × Value → List Value × Value
  | (key, value) => (Value.visitList visit key, Value.visit visit value)
termination_by structural entry => entry

end

/-- Leaves the marks alone. -/
def Visit.handles : Visit := ⟨Payload.handle, Payload.handle⟩

namespace Heap

/-- Reads what owners hold. -/
def reading (heap : Heap) : Visit := ⟨heap.numbers.read, heap.texts.read⟩

def hold (heap : Heap) : Part → Heap
  | .number payload => { heap with numbers := heap.numbers.hold payload }
  | .text payload => { heap with texts := heap.texts.hold payload }

def release (heap : Heap) : Part → Heap
  | .number payload => { heap with numbers := heap.numbers.release payload }
  | .text payload => { heap with texts := heap.texts.release payload }

def holdAll (heap : Heap) (parts : List Part) : Heap :=
  parts.foldl hold heap

def releaseAll (heap : Heap) (parts : List Part) : Heap :=
  parts.foldl release heap

/-- The value that a stored one stands for. -/
def load (heap : Heap) (stored : Value) : Value :=
  stored.visit heap.reading

/-- Takes hold of all payloads of a value. Returns what is stored for it. -/
def take (heap : Heap) (value : Value) : Value × Heap :=
  let (placed, next) := value.place heap.next
  (placed.visit Visit.handles, { heap.holdAll placed.parts with next })

end Heap

end Calculator
