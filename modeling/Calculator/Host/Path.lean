import Calculator.Host.Basic

/-!
# Names in the tree

Names are resolved component by component from the root or the current directory. This module opens
files by name, and stores, removes and lists the files of the tree.
-/

namespace Calculator

/-- How a file is to be opened. -/
structure OpenRequest where
  access : Access
  create : Bool
  truncate : Bool
  append : Bool
  deriving DecidableEq, Repr

namespace Host

def maxComponent : Nat := 255

def maxName : Nat := 4095

def components (name : String) : List String :=
  (name.splitOn "/").filter (fun component => !component.isEmpty)

def isAbsolute (name : String) : Bool :=
  name.startsWith "/"

def startOf (name : String) : NodeId :=
  if isAbsolute name then root else currentDirectory

/-- What a slash follows has to be a directory. -/
def endsInSlash (name : String) : Bool :=
  name.endsWith "/"

/-- Refuses what is no name at all: the empty one, one that holds a NUL, and one that is too long. -/
def checkName (name : String) : Except Fault Unit :=
  if name.contains '\x00' then .error .nulInName
  else if name.isEmpty then .error .noEntry
  else if name.utf8ByteSize > maxName then .error .nameTooLong
  else .ok ()

/-- Goes from a directory to one of its components. -/
def step (host : Host) (directory : NodeId) (component : String) : Except Fault NodeId :=
  match host.nodes[directory]? with
  | some (.directory parent entries) =>
      if component == "." then .ok directory
      else if component == ".." then .ok parent
      else if component.utf8ByteSize > maxComponent then .error .nameTooLong
      else
        match entries.lookup component with
        | some node => .ok node
        | none => .error .noEntry
  | _ => .error .notDirectory

def walk (host : Host) (start : NodeId) (path : List String) : Except Fault NodeId :=
  path.foldlM host.step start

def isDirectory (host : Host) (id : NodeId) : Bool :=
  match host.nodes[id]? with
  | some (.directory _ _) => true
  | _ => false

/-- The node that a name stands for. -/
def resolve (host : Host) (name : String) : Except Fault NodeId := do
  checkName name
  let id ← host.walk (startOf name) (components name)
  if endsInSlash name && !host.isDirectory id then throw .notDirectory
  return id

/-- Adds a node to a directory under a name that is free there. -/
def addEntry (host : Host) (directory : NodeId) (name : String) (node : Node) : NodeId × Host :=
  let (id, host) := host.addNode node
  match host.nodes[directory]? with
  | some (.directory parent entries) =>
      (id, host.setNode directory (.directory parent (entries ++ [(name, id)])))
  | _ => (id, host)

/-- Opens a node that exists. Directories can only be read, and a file may be emptied. -/
def openNode (host : Host) (id : NodeId) (request : OpenRequest) :
    Except Fault DescriptorId × Host :=
  if host.isDirectory id && (request.access.writes || request.create) then
    (.error .isDirectory, host)
  else
    let emptied :=
      match host.nodes[id]? with
      | some (.file _) => if request.truncate then host.setNode id (.file Content.empty) else host
      | _ => host
    let (descriptor, host) := emptied.attach id request.append
    (.ok descriptor, host)

/-- Opens the last component of a name in its directory; `slash` tells that a slash follows it. -/
def openLast (host : Host) (directory : NodeId) (last : String) (slash : Bool)
    (request : OpenRequest) : Except Fault DescriptorId × Host :=
  let plainName := last != "." && last != ".."
  if !host.isDirectory directory then (.error .notDirectory, host)
  else if plainName && slash && request.create then (.error .isDirectory, host)
  else
    match host.step directory last with
    | .ok id =>
        if slash && !host.isDirectory id then (.error .notDirectory, host)
        else host.openNode id request
    | .error .noEntry =>
        if request.create then
          let (id, host) := host.addEntry directory last (.file Content.empty)
          host.openNode id request
        else (.error .noEntry, host)
    | .error fault => (.error fault, host)

/-- Opens a file by name. A refused request changes nothing. -/
def openName (host : Host) (name : String) (request : OpenRequest) :
    Except Fault DescriptorId × Host :=
  match checkName name with
  | .error fault => (.error fault, host)
  | .ok () =>
      match (components name).getLast? with
      | none => host.openNode root request
      | some last =>
          match host.walk (startOf name) (components name).dropLast with
          | .error fault => (.error fault, host)
          | .ok directory => host.openLast directory last (endsInSlash name) request

def find? (host : Host) (name : String) : Option Node :=
  match host.resolve name with
  | .ok id => host.nodes[id]?
  | .error _ => none

/-- Goes to a component of a directory, and makes a directory of that name where there is none. -/
def enter (host : Host) (directory : NodeId) (component : String) : NodeId × Host :=
  match host.step directory component with
  | .ok id => (id, host)
  | .error _ => host.addEntry directory component (.directory directory [])

/-- Goes along a path, making the directories that are missing. -/
def enterAll (host : Host) (directory : NodeId) : List String → NodeId × Host
  | [] => (directory, host)
  | component :: rest =>
      let (next, host) := host.enter directory component
      host.enterAll next rest

def makeDirectory (host : Host) (name : String) : Host :=
  (host.enterAll (startOf name) (components name)).2

/-- Stores a file, with the directories above it. Returns its node. -/
def store (host : Host) (name : String) (bytes : Bytes) : NodeId × Host :=
  match (components name).getLast? with
  | none => (root, host)
  | some last =>
      let (directory, host) := host.enterAll (startOf name) (components name).dropLast
      match host.step directory last with
      | .ok id => (id, host.setNode id (.file (Content.ofBytes bytes)))
      | .error _ => host.addEntry directory last (.file (Content.ofBytes bytes))

/-- How a whole file is replaced from outside. -/
def replacing : OpenRequest where
  access := { reads := false, writes := true }
  create := true
  truncate := true
  append := false

/-- Replaces what a file holds, in place, or makes the file. Tells whether that was possible. -/
def overwrite (host : Host) (name : String) (bytes : Bytes) : Bool × Host :=
  match host.openName name replacing with
  | (.error _, host) => (false, host)
  | (.ok descriptor, host) =>
      match host.write descriptor bytes with
      | (.ok (), host) => (true, host)
      | (.error _, host) => (false, host)

/-- Sets the length of a file that exists. -/
def setLength (host : Host) (name : String) (length : Nat) : Bool × Host :=
  match host.resolve name with
  | .error _ => (false, host)
  | .ok id =>
      match host.nodes[id]? with
      | some (.file content) =>
          if length ≤ Content.maxSize then
            (true, host.setNode id (.file (content.resize length)))
          else (false, host)
      | _ => (false, host)

/-- Takes a file's name out of its directory. Descriptors stay open on the file. -/
def unlink (host : Host) (name : String) : Bool × Host :=
  match host.resolve name, (components name).getLast? with
  | .ok id, some last =>
      if host.isDirectory id then (false, host)
      else
        match host.walk (startOf name) (components name).dropLast with
        | .error _ => (false, host)
        | .ok directory =>
            match host.nodes[directory]? with
            | some (.directory parent entries) =>
                (true, host.setNode directory
                  (.directory parent (entries.filter fun entry => entry.1 != last)))
            | _ => (false, host)
  | _, _ => (false, host)

/-- The files below a directory, at most `depth` levels down, with their names after `above`. -/
def filesBelow (host : Host) : Nat → NodeId → String → List (String × Content)
  | 0, _, _ => []
  | depth + 1, directory, above =>
      match host.nodes[directory]? with
      | some (.directory _ entries) =>
          entries.flatMap fun (name, id) =>
            match host.nodes[id]? with
            | some (.file content) => [(above ++ name, content)]
            | some (.directory _ _) => host.filesBelow depth id (above ++ name ++ "/")
            | _ => []
      | _ => []

/-- Every file in the current directory and in the one above it, by its name as seen from the
current one. -/
def files (host : Host) : List (String × Content) :=
  let depth := host.nodes.length
  let above :=
    match host.nodes[upperDirectory]? with
    | some (.directory _ entries) =>
        entries.flatMap fun (name, id) =>
          if id = currentDirectory then []
          else
            match host.nodes[id]? with
            | some (.file content) => [("../" ++ name, content)]
            | some (.directory _ _) => host.filesBelow depth id ("../" ++ name ++ "/")
            | _ => []
    | _ => []
  host.filesBelow depth currentDirectory "" ++ above

end Host

end Calculator
