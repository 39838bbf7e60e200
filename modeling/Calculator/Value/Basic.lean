import Calculator.Block
import Calculator.ErrorCode
import Calculator.Number.Basic
import Calculator.Payload
import Calculator.Protection

/-!
# Values

What a variable of the calculator can hold: numbers, texts, blocks, containers of values, and
handles of files and named blocks, each with its protection bits.
-/

namespace Calculator

/-- Handle of a named block: a word of 32 bits. -/
structure BlockId where
  number : UInt32
  deriving DecidableEq, Repr

namespace BlockId

/-- The handle of the block that is made behind so many others. There are only 2^32 handles, so the
count is taken modulo their number. -/
def ofPlace (place : Nat) : BlockId :=
  ⟨UInt32.ofNat place⟩

def place (id : BlockId) : Nat :=
  id.number.toNat

theorem place_inj {id other : BlockId} : id.place = other.place ↔ id = other := by
  rw [place, place, UInt32.toNat_inj, BlockId.mk.injEq]

@[simp]
theorem ofPlace_place (id : BlockId) : ofPlace id.place = id := by
  rw [ofPlace, place, UInt32.ofNat_toNat]

theorem place_ofPlace {place : Nat} (few : place < UInt32.size) : (ofPlace place).place = place :=
  UInt32.toNat_ofNat_of_lt' few

end BlockId

/-- Handle of an open file. -/
structure FileId where
  number : Nat
  deriving DecidableEq, Repr

namespace FileId

def stdin : FileId := ⟨0⟩
def stdout : FileId := ⟨1⟩
def stderr : FileId := ⟨2⟩

def isStandard (id : FileId) : Bool :=
  id.number ≤ 2

def display (id : FileId) : String :=
  Positional.decimal id.number

end FileId

abbrev Bounds := Int × Int

/-- What an octet points into. -/
inductive OctetTarget where
  | text (text : Payload Bytes)
  | namedBlock (id : BlockId)

/-- The shapes of a value whose elements are of type `α`. -/
inductive Data (α : Type) where
  | null
  | number (number : Payload Number)
  | complex (re im : Payload Number)
  | text (text : Payload Bytes)
  | block (block : Block)
  | namedBlock (id : BlockId)
  | octet (target : OctetTarget) (index : Nat)
  | matrix (bounds : List Bounds) (slots : List α)
  | list (items : List α)
  | association (entries : List (List α × α))
  | file (id : FileId)
  | error (code : ErrorCode)

structure Value where
  data : Data Value
  protection : Protection

/-- The kinds of values. -/
inductive Kind where
  | null
  | number
  | complex
  | text
  | block
  | namedBlock
  | octet
  | matrix
  | list
  | association
  | file
  | error
  deriving DecidableEq, Repr

namespace Kind

def name : Kind → String
  | null => "null"
  | number => "number"
  | complex => "complex"
  | text => "string"
  | block => "block"
  | namedBlock => "nblock"
  | octet => "octet"
  | matrix => "matrix"
  | list => "list"
  | association => "association"
  | file => "file"
  | error => "error"

end Kind

def Data.kind {α : Type} : Data α → Kind
  | null => .null
  | number _ => .number
  | complex _ _ => .complex
  | text _ => .text
  | block _ => .block
  | namedBlock _ => .namedBlock
  | octet _ _ => .octet
  | matrix _ _ => .matrix
  | list _ => .list
  | association _ => .association
  | file _ => .file
  | error _ => .error

namespace Value

def plain (data : Data Value) : Value := ⟨data, Protection.none⟩

def null : Value := plain .null
def ofNumber (number : Number) : Value := plain (.number (.fresh number))
def ofInt (value : Int) : Value := ofNumber (Number.ofInt value)
def ofText (bytes : Bytes) : Value := plain (.text (.fresh bytes))
def ofBlock (block : Block) : Value := plain (.block block)
def ofNamedBlock (id : BlockId) : Value := plain (.namedBlock id)
def ofFile (id : FileId) : Value := plain (.file id)
def ofError (code : ErrorCode) : Value := plain (.error code)

def ofBool (flag : Bool) : Value := ofInt (if flag then 1 else 0)

instance : Inhabited Value := ⟨null⟩

def kind (value : Value) : Kind :=
  value.data.kind

def isNull (value : Value) : Bool :=
  value.kind == .null

def isError (value : Value) : Bool :=
  value.kind == .error

def number? (value : Value) : Option Number :=
  match value.data with
  | .number payload => some payload.content
  | _ => none

/-- The integer that the value is, if a signed 64-bit word holds it. -/
def word? (value : Value) : Option Int :=
  value.number?.bind Number.toWord?

/-- The integer that the value is, of any size. -/
def integer? (value : Value) : Option Int :=
  match value.number? with
  | some number => if number.isInteger then some number.num else none
  | none => none

def text? (value : Value) : Option Bytes :=
  match value.data with
  | .text payload => some payload.content
  | _ => none

def file? (value : Value) : Option FileId :=
  match value.data with
  | .file id => some id
  | _ => none

def protect (value : Value) (bits : Protection) : Value :=
  { value with protection := value.protection.union bits }

def unprotect (value : Value) (bits : Protection) : Value :=
  { value with protection := value.protection.without bits }

/-- The byte that the value contributes to a block by itself: the low octet of a number, the first
byte of a text or block, the byte of a text that an octet points to, and zero for all others. -/
def octet (value : Value) : UInt8 :=
  match value.data with
  | .number payload => payload.content.lowOctet
  | .complex re _ => re.content.lowOctet
  | .text payload => payload.content.headD 0
  | .block block => block.byteAt 0
  | .octet (.text payload) index => payload.content.getD index 0
  | _ => 0

end Value

end Calculator
