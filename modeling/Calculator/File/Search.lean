import Calculator.File.Table
import Calculator.Host.Occurrence

/-!
# Searching files

A text is searched for forwards or backwards. A forward search leaves the file behind the match, or
behind all that had to be read to rule one out; a backward one behind the match, or at its last
position.
-/

namespace Calculator

namespace Transfer

/-- The first position from `start` and before `finish` where the needle stands. Without a match, what
a match before `finish` could cover is read. -/
def search (needle : Bytes) (start finish : Nat) : Transfer (Option Nat) := do
  prepareRead
  seek start
  if needle.isEmpty then return if start < finish then some start else none
  else
    let channel ← get
    match channel.host.firstOccurrence? channel.stream.descriptor needle start finish with
    | some position =>
        skip (position - start + needle.length)
        return some position
    | none =>
        skip (finish - start + needle.length)
        return none

/-- Goes to a position and reads what the needle would cover there. -/
def probe (needle : Bytes) (position : Nat) : Transfer Unit := do
  seek position
  skip needle.length

/-- The last position from `first` down to `last` where the needle stands. On a miss the file is left
at `last`. A file that cannot be read shows it at the first probe. -/
def searchBack (needle : Bytes) (first last : Nat) : Transfer (Option Nat) := do
  prepareRead
  if needle.isEmpty then
    seek first
    return some first
  else if first < last then
    seek last
    return none
  else
    probe needle first
    let channel ← get
    match channel.host.lastOccurrence? channel.stream.descriptor needle last (first + 1) with
    | some position =>
        probe needle position
        return some position
    | none =>
        seek last
        return none

end Transfer

namespace Files

def search (id : FileId) (needle : Bytes) (start finish : Int) : FileM (Option Int) := do
  let start ← Position.toAbsolute start
  let finish ← Position.toAbsolute finish
  let found ← run (← readableEntry id) (Transfer.search needle start finish)
  return found.map Int.ofNat

def searchBack (id : FileId) (needle : Bytes) (first last : Int) : FileM (Option Int) := do
  let first ← Position.toAbsolute first
  let last ← Position.toAbsolute last
  let found ← run (← readableEntry id) (Transfer.searchBack needle first last)
  return found.map Int.ofNat

end Files

end Calculator
