import Calculator.File.Table

/-!
# Reading texts

A text is read up to a byte at which it stops: a newline, a NUL or white space, as asked for. Bytes
are gathered in pieces of the table's read chunk.
-/

namespace Calculator

structure ReadOptions where
  stopNewline : Bool
  stopNul : Bool
  /-- White space stops the text, and what stands before the text is skipped. -/
  stopBlank : Bool
  /-- The stopping byte is not part of the text. -/
  strip : Bool
  deriving DecidableEq, Repr

namespace ReadOptions

def ofBits (bits : Nat) : ReadOptions where
  stopNewline := bits.testBit 0
  stopNul := bits.testBit 1
  stopBlank := bits.testBit 2
  strip := bits.testBit 3

def line : ReadOptions := ⟨true, false, false, false⟩

def strippedLine : ReadOptions := ⟨true, false, false, true⟩

def word : ReadOptions := ⟨false, false, true, true⟩

def terminated : ReadOptions := ⟨false, true, false, true⟩

def everything : ReadOptions := ⟨false, false, false, false⟩

def isBlank (byte : UInt8) : Bool :=
  byte == 0x20 || (0x09 ≤ byte && byte ≤ 0x0D)

def stopsAt (options : ReadOptions) (byte : UInt8) : Bool :=
  (options.stopNewline && byte == 0x0A) || (options.stopNul && byte == 0)
    || (options.stopBlank && isBlank byte)

end ReadOptions

/-- Why a piece of a text ended. -/
inductive PieceEnd where
  | full
  | stopped (byte : UInt8)
  | atEof
  deriving DecidableEq, Repr

namespace Transfer

/-- Reads past white space, at most `fuel` bytes of it. -/
def skipBlanks : Nat → Transfer Unit
  | 0 => return ()
  | fuel + 1 => do
      match ← readByte with
      | none => return ()
      | some byte => if ReadOptions.isBlank byte then skipBlanks fuel else unread byte

/-- Reads a piece of at most `room` bytes that do not stop the text. -/
def readPiece (options : ReadOptions) : Nat → Transfer (Bytes × PieceEnd)
  | 0 => return ([], .full)
  | room + 1 => do
      match ← readByte with
      | none => return ([], .atEof)
      | some byte =>
          if options.stopsAt byte then return ([], .stopped byte)
          else
            let (piece, ending) ← readPiece options room
            return (byte :: piece, ending)

/-- Reads pieces of `chunk` bytes until the text stops. Returns the text and the byte that stopped
it. -/
def readPieces (options : ReadOptions) (chunk : Nat) : Nat → Transfer (Bytes × Option UInt8)
  | 0 => return ([], none)
  | fuel + 1 => do
      let (piece, ending) ← readPiece options chunk
      match ending with
      | .stopped byte => return (piece, some byte)
      | .atEof => return (piece, none)
      | .full =>
          let (rest, stop) ← readPieces options chunk fuel
          return (piece ++ rest, stop)

/-- Reads a text up to its stop or the end of the file; none when the file is at its end. -/
def readText (options : ReadOptions) (chunk : Nat) : Transfer (Option Bytes) := do
  prepareRead
  if options.stopBlank then skipBlanks ((← available) + 1)
  let (text, stop) ← readPieces options chunk ((← available) + 1)
  match stop with
  | none => return if text.isEmpty then none else some text
  | some byte => return some (if options.strip then text else text ++ [byte])

end Transfer

namespace Files

def readText (id : FileId) (options : ReadOptions) : FileM (Option Bytes) := do
  let entry ← readableEntry id
  run entry (Transfer.readText options (← get).table.readChunk)

end Files

end Calculator
