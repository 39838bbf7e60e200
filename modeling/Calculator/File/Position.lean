import Calculator.File.Error
import Calculator.Word

/-!
# File positions

Positions are integers of any size to the calculator. The host takes those that a signed 64-bit word
holds; others are refused, never cut.
-/

namespace Calculator.Position

/-- A native offset as an integer, read from its two words. -/
def ofNative (offset : UInt64) : Int :=
  (Word.toNat [(Word.split offset).1, (Word.split offset).2] : Int)

def toOffset (position : Int) : Except FileError Int :=
  if Number.fitsWord position then .ok position else .error .positionOutOfRange

def toAbsolute (position : Int) : Except FileError Nat := do
  let offset ← toOffset position
  if offset < 0 then .error .negativePosition else .ok offset.toNat

end Calculator.Position
