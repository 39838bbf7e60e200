import Calculator.Host.Basic

/-!
# Buffered streams

A stream stands between the calculator and a descriptor. Reading fetches a buffer at a time and hands
out its bytes; bytes can be pushed back. Writing collects output until a buffer is full, except on the
standard streams. The logical position is that of the descriptor, plus the output not yet written,
less the bytes fetched or pushed back and not yet handed out.
-/

namespace Calculator

/-- The direction of the last transfer. A change of direction needs a resync. -/
inductive Direction where
  | none
  | read
  | write
  deriving DecidableEq, Repr

structure Stream where
  descriptor : DescriptorId
  buffered : Bool
  /-- Bytes fetched from the descriptor and not yet handed out. -/
  ahead : Bytes
  /-- Bytes pushed back, the last one first. -/
  pushback : Bytes
  /-- Output not yet written. -/
  pending : Bytes
  eof : Bool
  failed : Bool
  direction : Direction

namespace Stream

/-- Bytes fetched at once, and output that fills the buffer. -/
def bufferSize : Nat := 8192

def new (descriptor : DescriptorId) (buffered : Bool) : Stream where
  descriptor := descriptor
  buffered := buffered
  ahead := []
  pushback := []
  pending := []
  eof := false
  failed := false
  direction := .none

/-- How many bytes the descriptor is ahead of what was handed out. -/
def aheadCount (stream : Stream) : Nat :=
  stream.ahead.length + stream.pushback.length

end Stream

/-- A stream and the host that its descriptor belongs to. -/
structure Channel where
  stream : Stream
  host : Host

/-- Transfers on a channel. A fault leaves the channel as the transfer left it. -/
abbrev Transfer := ExceptT Fault (StateM Channel)

namespace Transfer

/-- Runs a request of the host; a fault marks the stream as failed. -/
def request {α : Type} (run : Host → DescriptorId → Except Fault α × Host) : Transfer α :=
  fun channel =>
    match run channel.host channel.stream.descriptor with
    | (.ok result, host) => (.ok result, { channel with host })
    | (.error fault, host) =>
        (.error fault, { stream := { channel.stream with failed := true }, host })

def modifyStream (change : Stream → Stream) : Transfer Unit :=
  modify fun channel => { channel with stream := change channel.stream }

/-- The next byte: pushed back, fetched before, or fetched now. None at the end, which is noted. -/
def readByte : Transfer (Option UInt8) := do
  let stream := (← get).stream
  match stream.pushback, stream.ahead with
  | byte :: rest, _ =>
      modifyStream fun stream => { stream with pushback := rest }
      return some byte
  | [], byte :: rest =>
      modifyStream fun stream => { stream with ahead := rest }
      return some byte
  | [], [] =>
      match ← request fun host descriptor => host.read descriptor Stream.bufferSize with
      | [] =>
          modifyStream fun stream => { stream with eof := true }
          return none
      | byte :: rest =>
          modifyStream fun stream => { stream with ahead := rest }
          return some byte

/-- Pushes a byte back in front of what is still to be read. -/
def unread (byte : UInt8) : Transfer Unit :=
  modifyStream fun stream => { stream with pushback := byte :: stream.pushback, eof := false }

/-- Writes out what is pending. It is gone from the buffer even when the host refuses it. -/
def flush : Transfer Unit := do
  let pending := (← get).stream.pending
  modifyStream fun stream => { stream with pending := [] }
  request fun host descriptor => host.write descriptor pending

/-- Writes at once on an unbuffered stream; else collects the bytes and writes a full buffer out. -/
def writeAll (bytes : Bytes) : Transfer Unit := do
  if (← get).stream.buffered then
    modifyStream fun stream => { stream with pending := stream.pending ++ bytes }
    if (← get).stream.pending.length ≥ Stream.bufferSize then flush
  else
    request fun host descriptor => host.write descriptor bytes

def forgetAhead : Transfer Unit :=
  modifyStream fun stream => { stream with ahead := [], pushback := [] }

/-- Moves the descriptor back to the logical position, so that a write lands where reading stopped. -/
def discardAhead : Transfer Unit := do
  let count := (← get).stream.aheadCount
  forgetAhead
  if count > 0 then request fun host descriptor => host.seekBack descriptor count

def prepareRead : Transfer Unit := do
  if (← get).stream.direction == .write then flush
  modifyStream fun stream => { stream with direction := .read }

def prepareWrite : Transfer Unit := do
  if (← get).stream.direction == .read then discardAhead
  modifyStream fun stream => { stream with direction := .write }

/-- Goes to `target`. What was fetched or pushed back is forgotten. -/
def seek (target : Nat) : Transfer Unit := do
  flush
  modifyStream fun stream => { stream with ahead := [], pushback := [], eof := false }
  request fun host descriptor => host.seek descriptor target

/-- Goes to `target`, after which either direction is free. -/
def reposition (target : Nat) : Transfer Unit := do
  seek target
  modifyStream fun stream => { stream with direction := .none }

def rewind : Transfer Unit := do
  seek 0
  modifyStream fun stream => { stream with eof := false, failed := false, direction := .none }

/-- The logical position. -/
def position : Transfer Nat := fun channel =>
  match channel.host.tell channel.stream.descriptor with
  | .error fault => (.error fault, channel)
  | .ok offset =>
      (.ok (offset + channel.stream.pending.length - channel.stream.aheadCount), channel)

def size : Transfer Nat := do
  flush
  fun channel => (channel.host.size channel.stream.descriptor, channel)

/-- At most this many bytes can still be read before the end. -/
def available : Transfer Nat := fun channel =>
  (.ok (channel.stream.aheadCount + channel.host.remaining channel.stream.descriptor), channel)

/-- At most `count` bytes, fewer only at the end. -/
def readBytes : Nat → Transfer Bytes
  | 0 => return []
  | count + 1 => do
      match ← readByte with
      | none => return []
      | some byte => return byte :: (← readBytes count)

/-- Reads `count` bytes, or all that is left, and drops them. -/
def skip : Nat → Transfer Unit
  | 0 => return ()
  | count + 1 => do
      match ← readByte with
      | none => return ()
      | some _ => skip count

end Transfer

end Calculator
