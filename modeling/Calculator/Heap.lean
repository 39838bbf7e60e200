import Calculator.Bytes
import Calculator.Number.Basic
import Calculator.Payload

/-!
# The heap of payloads

Owned payloads are kept in one place each, with a count of their owners. An owner that comes adds a link,
an owner that goes drops one, and the last link frees the payload. A text is written where it is kept,
so all its owners see the write; an owner that must not be seen to write isolates the text first.
-/

namespace Calculator

/-- A payload where it is kept, and how many owners it has. -/
structure Cell (α : Type) where
  content : α
  links : Nat

/-- The owned payloads of one type, each under its mark. -/
structure Store (α : Type) where
  cells : List (Mark × Cell α)

namespace Store

variable {α : Type}

def empty : Store α := ⟨[]⟩

def cell? (store : Store α) (mark : Mark) : Option (Cell α) :=
  store.cells.lookup mark

/-- Links of a payload; one that is not owned has none. -/
def links (store : Store α) (mark : Mark) : Nat :=
  match store.cell? mark with
  | some cell => cell.links
  | none => 0

def modify (store : Store α) (mark : Mark) (change : Cell α → Cell α) : Store α :=
  ⟨store.cells.map fun (other, cell) => (other, if other == mark then change cell else cell)⟩

def remove (store : Store α) (mark : Mark) : Store α :=
  ⟨store.cells.filter fun entry => entry.1 != mark⟩

/-- An owner comes. With the first one the payload is put into the store. -/
def link (store : Store α) (mark : Mark) (content : α) : Store α :=
  match store.cell? mark with
  | some _ => store.modify mark fun cell => { cell with links := cell.links + 1 }
  | none => ⟨(mark, { content, links := 1 }) :: store.cells⟩

/-- An owner goes. The last one takes the payload with it. -/
def drop (store : Store α) (mark : Mark) : Store α :=
  if store.links mark ≤ 1 then store.remove mark
  else store.modify mark fun cell => { cell with links := cell.links - 1 }

def write (store : Store α) (mark : Mark) (content : α) : Store α :=
  store.modify mark fun cell => { cell with content }

/-- The payload that an owner holds. -/
def read (store : Store α) (payload : Payload α) : Payload α :=
  match payload.mark.bind store.cell? with
  | some cell => { payload with content := cell.content }
  | none => payload

/-- An owner takes hold of a payload that is marked. -/
def hold (store : Store α) (payload : Payload α) : Store α :=
  match payload.mark with
  | some mark => store.link mark payload.content
  | none => store

def release (store : Store α) (payload : Payload α) : Store α :=
  match payload.mark with
  | some mark => store.drop mark
  | none => store

end Store

instance : Inhabited Number := ⟨Number.ofInt 0⟩

structure Heap where
  numbers : Store Number
  texts : Store Bytes
  /-- The next mark to give out. -/
  next : Mark

namespace Heap

/-- What an owner of a text writes to: the text itself where nobody else owns it, else a copy of its
own. -/
def isolate (heap : Heap) (text : Payload Bytes) : Payload Bytes × Heap :=
  match text.mark with
  | some mark =>
      if heap.texts.links mark ≤ 1 then (text, heap)
      else
        let (copy, next) := (Payload.fresh (heap.texts.read text).content).place heap.next
        (copy.handle, { heap with texts := (heap.texts.hold copy).drop mark, next })
  | none => (text, heap)

/-- Writes a text where it is kept. -/
def writeText (heap : Heap) (text : Payload Bytes) (content : Bytes) : Heap :=
  match text.mark with
  | some mark => { heap with texts := heap.texts.write mark content }
  | none => heap

end Heap

end Calculator
