import Calculator.Content
import Calculator.Host.Fault

/-!
# The host

The part of the operating system that files live in: a tree of nodes, and descriptors that are open
on nodes. Several descriptors can be open on one node; each has an offset of its own.
-/

namespace Calculator

abbrev NodeId := Nat

abbrev DescriptorId := Nat

/-- What a name in the tree, or a descriptor, can stand for. -/
inductive Node where
  | file (content : Content)
  | directory (parent : NodeId) (entries : List (String × NodeId))
  | pipe (queued : Bytes)
  | fullDevice
  | nullDevice

structure Descriptor where
  node : NodeId
  offset : Nat
  appends : Bool

/-- The directions in which a descriptor is open. -/
structure Access where
  reads : Bool
  writes : Bool
  deriving DecidableEq, Repr

/-- A descriptor that was open before the calculator started, under its number. -/
structure Inheritance where
  number : Nat
  access : Access
  descriptor : DescriptorId

structure Host where
  nodes : List Node
  descriptors : List Descriptor
  inherited : List Inheritance
  home : Option String
  searchPath : Option String

namespace Host

def root : NodeId := 0

def temporaryDirectory : NodeId := 4

/-- The directory above the current one. It lies in the temporary directory, under a name that nobody
knows, so that no absolute name leads to it. -/
def upperDirectory : NodeId := 5

def currentDirectory : NodeId := 6

/-- Name of the current directory in the one above it. -/
def currentName : String := "cwd"

def maxDescriptors : Nat := 20000

def maxOffset : Nat := 9223372036854775807

def directorySize : Nat := 4096

/-- The nodes that are there before anything is stored. -/
def initialNodes : List Node :=
  [.directory root [("dev", 1), ("tmp", temporaryDirectory)],
   .directory root [("full", 2), ("null", 3)],
   .fullDevice,
   .nullDevice,
   .directory root [],
   .directory temporaryDirectory [(currentName, currentDirectory)],
   .directory upperDirectory []]

/-- A host with an empty current directory and no descriptors. -/
def initial (home searchPath : Option String) : Host where
  nodes := initialNodes
  descriptors := []
  inherited := []
  home := home
  searchPath := searchPath

def addNode (host : Host) (node : Node) : NodeId × Host :=
  (host.nodes.length, { host with nodes := host.nodes ++ [node] })

def setNode (host : Host) (id : NodeId) (node : Node) : Host :=
  { host with nodes := host.nodes.set id node }

/-- Opens a descriptor at the start of a node. -/
def attach (host : Host) (node : NodeId) (appends : Bool) : DescriptorId × Host :=
  (host.descriptors.length,
    { host with descriptors := host.descriptors ++ [{ node, offset := 0, appends }] })

/-- Adds a descriptor that was open before the start, in the order of the numbers. -/
def inherit (host : Host) (inheritance : Inheritance) : Host :=
  let lower := host.inherited.filter fun other => other.number < inheritance.number
  let higher := host.inherited.filter fun other => other.number > inheritance.number
  { host with inherited := lower ++ inheritance :: higher }

def setOffset (host : Host) (id : DescriptorId) (offset : Nat) : Host :=
  { host with
    descriptors := host.descriptors.modify id fun descriptor => { descriptor with offset } }

def node? (host : Host) (id : DescriptorId) : Option NodeId :=
  (host.descriptors[id]?).map Descriptor.node

def open? (host : Host) (id : DescriptorId) : Option (Descriptor × Node) :=
  match host.descriptors[id]? with
  | none => none
  | some descriptor => (host.nodes[descriptor.node]?).map fun node => (descriptor, node)

/-- Why a directory is not read: `count` bytes from the offset have to end within the offsets that
there are, before anything else is asked. -/
def directoryFault (offset count : Nat) : Fault :=
  if offset + count ≤ maxOffset then .isDirectory else .invalidArgument

/-- Reads at most `count` bytes at the offset and moves it past them. At the end there are none. -/
def read (host : Host) (id : DescriptorId) (count : Nat) : Except Fault Bytes × Host :=
  match host.open? id with
  | none => (.error .badDescriptor, host)
  | some (descriptor, .file content) =>
      let bytes := content.read descriptor.offset count
      (.ok bytes, host.setOffset id (descriptor.offset + bytes.length))
  | some (descriptor, .directory _ _) => (.error (directoryFault descriptor.offset count), host)
  | some (descriptor, .pipe queued) =>
      (.ok (queued.take count), host.setNode descriptor.node (.pipe (queued.drop count)))
  | some (_, .fullDevice) => (.ok (Bytes.zeros count), host)
  | some (_, .nullDevice) => (.ok [], host)

/-- What stands at `start` in the node that a descriptor is open on, at most `count` bytes. The
offset stays where it is. Nothing stands in a pipe or in a directory. -/
def peek (host : Host) (id : DescriptorId) (start count : Nat) : Bytes :=
  match host.open? id with
  | some (_, .file content) => content.read start count
  | some (_, .fullDevice) => Bytes.zeros count
  | _ => []

/-- Puts bytes into the file that a descriptor is open on, and leaves the offset behind them. -/
def put (host : Host) (id : DescriptorId) (node : NodeId) (content : Content) (start : Nat)
    (bytes : Bytes) : Host :=
  (host.setNode node (.file (content.write start bytes))).setOffset id (start + bytes.length)

/-- Writes into a file at the offset, or at the end for a descriptor that appends. What the file
cannot hold is refused after the rest is written. -/
def writeFile (host : Host) (id : DescriptorId) (descriptor : Descriptor) (content : Content)
    (bytes : Bytes) : Except Fault Unit × Host :=
  let start := if descriptor.appends then content.size else descriptor.offset
  let room := Content.maxSize - start
  if bytes.length ≤ room then (.ok (), host.put id descriptor.node content start bytes)
  else if room = 0 then (.error .fileTooLarge, host)
  else (.error .fileTooLarge, host.put id descriptor.node content start (bytes.take room))

/-- Writes bytes to what a descriptor is open on. -/
def write (host : Host) (id : DescriptorId) (bytes : Bytes) : Except Fault Unit × Host :=
  if bytes.isEmpty then (.ok (), host)
  else
    match host.open? id with
    | none => (.error .badDescriptor, host)
    | some (descriptor, .file content) => host.writeFile id descriptor content bytes
    | some (_, .directory _ _) => (.error .badDescriptor, host)
    | some (descriptor, .pipe queued) =>
        (.ok (), host.setNode descriptor.node (.pipe (queued ++ bytes)))
    | some (_, .fullDevice) => (.error .noSpace, host)
    | some (_, .nullDevice) => (.ok (), host)

/-- Where the descriptor stands. Devices always stand at zero, pipes stand nowhere. -/
def tell (host : Host) (id : DescriptorId) : Except Fault Nat :=
  match host.open? id with
  | none => .error .badDescriptor
  | some (descriptor, .file _) => .ok descriptor.offset
  | some (descriptor, .directory _ _) => .ok descriptor.offset
  | some (_, .pipe _) => .error .illegalSeek
  | some (_, .fullDevice) => .ok 0
  | some (_, .nullDevice) => .ok 0

/-- Moves the descriptor to `target`, also past the end, as far as a file can reach. -/
def seek (host : Host) (id : DescriptorId) (target : Nat) : Except Fault Unit × Host :=
  match host.open? id with
  | none => (.error .badDescriptor, host)
  | some (_, .file _) =>
      if target ≤ Content.maxSize then (.ok (), host.setOffset id target)
      else (.error .invalidArgument, host)
  | some (_, .directory _ _) => (.ok (), host.setOffset id target)
  | some (_, .pipe _) => (.error .illegalSeek, host)
  | some (_, .fullDevice) => (.ok (), host)
  | some (_, .nullDevice) => (.ok (), host)

/-- Moves the descriptor back by `count` bytes, which must not lead before the start. -/
def seekBack (host : Host) (id : DescriptorId) (count : Nat) : Except Fault Unit × Host :=
  match host.open? id with
  | some (_, .fullDevice) => (.ok (), host)
  | some (_, .nullDevice) => (.ok (), host)
  | _ =>
      match host.tell id with
      | .error fault => (.error fault, host)
      | .ok offset =>
          if count ≤ offset then host.seek id (offset - count)
          else (.error .invalidArgument, host)

/-- Size of the node that a descriptor is open on. -/
def size (host : Host) (id : DescriptorId) : Except Fault Nat :=
  match host.open? id with
  | none => .error .badDescriptor
  | some (_, .file content) => .ok content.size
  | some (_, .directory _ _) => .ok directorySize
  | some (_, _) => .ok 0

/-- How many bytes the descriptor can still deliver before its end. -/
def remaining (host : Host) (id : DescriptorId) : Nat :=
  match host.open? id with
  | some (descriptor, .file content) => content.size - descriptor.offset
  | some (_, .pipe queued) => queued.length
  | _ => 0

end Host

end Calculator
