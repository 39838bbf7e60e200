import Calculator.Host.Path

/-!
# What a calculator finds when it starts

The three standard descriptors come first, then the files of the tree, then descriptors that were left
open. The standard descriptors are regular files or pipes, and their nodes have no name in the tree.
-/

namespace Calculator

namespace Host

/-- Opens a descriptor on a new node without a name. -/
def attachNew (host : Host) (node : Node) : DescriptorId × Host :=
  let (id, host) := host.addNode node
  host.attach id false

/-- A host with standard input, output and error output as descriptors 0, 1 and 2. -/
def start (home searchPath : Option String) (input : Bytes) (piped : Bool) : Host :=
  let node (content : Bytes) : Node :=
    if piped then .pipe content else .file (Content.ofBytes content)
  [input, [], []].foldl (fun host content => (host.attachNew (node content)).2)
    (initial home searchPath)

def inheritPipe (host : Host) (number : Nat) (access : Access) (queued : Bytes) : Host :=
  let (descriptor, host) := host.attachNew (.pipe queued)
  host.inherit { number, access, descriptor }

/-- Leaves a file open under a number; a file that does not exist is made. -/
def inheritFile (host : Host) (number : Nat) (access : Access) (name : String) : Host :=
  let (node, host) :=
    match host.resolve name with
    | .ok node => (node, host)
    | .error _ => host.store name []
  let (descriptor, host) := host.attach node false
  host.inherit { number, access, descriptor }

/-- All that a descriptor's file holds, or that waits in its pipe. -/
def gathered (host : Host) (descriptor : DescriptorId) : Bytes :=
  match host.open? descriptor with
  | some (_, .file content) => content.toBytes
  | some (_, .pipe queued) => queued
  | _ => []

/-- The bytes behind a descriptor that was left open, by its number. -/
def gatheredUnder (host : Host) (number : Nat) : Bytes :=
  match host.inherited.find? fun inheritance => inheritance.number == number with
  | some inheritance => host.gathered inheritance.descriptor
  | none => []

end Host

end Calculator
