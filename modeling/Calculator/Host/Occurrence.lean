import Calculator.Bytes.Occurrence
import Calculator.Host.Basic

/-!
# Occurrences in a file

Where a byte string stands in the file behind a descriptor. The file is looked through a stretch at a
time, so that the part of it beyond an occurrence costs nothing, however long it is.
-/

namespace Calculator

namespace Host

/-- How many places are tried at once: enough that what the needle covers behind them is no more than
they are. -/
def stretch (needle : Bytes) : Nat :=
  max 8192 needle.length

/-- How many bytes the needle covers at one of `count` places. -/
def span (needle : Bytes) (count : Nat) : Nat :=
  count + needle.length - 1

/-- The first position from `start` and before `finish` where the needle stands. -/
def firstOccurrence? (host : Host) (id : DescriptorId) (needle : Bytes) (start finish : Nat) :
    Option Nat :=
  if start < finish then
    let count := min (stretch needle) (finish - start)
    let bytes := host.peek id start (span needle count)
    match Bytes.firstOccurrence? needle start bytes with
    | some position => some position
    | none =>
        if bytes.length < span needle count then none
        else host.firstOccurrence? id needle (start + count) finish
  else none
termination_by finish - start
decreasing_by
  simp only [stretch] at *
  omega

/-- The last position from `last` and before `bound` where the needle stands. -/
def lastOccurrence? (host : Host) (id : DescriptorId) (needle : Bytes) (last bound : Nat) :
    Option Nat :=
  if last < bound then
    let count := min (stretch needle) (bound - last)
    match Bytes.lastOccurrence? needle (bound - count)
        (host.peek id (bound - count) (span needle count)) with
    | some position => some position
    | none => host.lastOccurrence? id needle last (bound - count)
  else none
termination_by bound
decreasing_by
  simp only [stretch] at *
  omega

end Host

end Calculator
