import Calculator.File.Table

/-!
# Listing open files

Files are listed in the order in which they were opened. A file on the same node as an earlier one is
listed under it, as its alias.
-/

namespace Calculator

namespace Listing

variable {α : Type}

def remaining (belongs : α → α → Bool) (head : α) (rest : List α) : List α :=
  rest.filter fun other => !belongs head other

/-- Each element that belongs to no earlier one, with the later ones that belong to it. -/
def groups (belongs : α → α → Bool) : List α → List (α × List α)
  | [] => []
  | head :: rest =>
      (head, rest.filter (belongs head)) :: groups belongs (remaining belongs head rest)
termination_by items => items.length
decreasing_by exact Nat.lt_succ_of_le (List.length_filter_le _ _)

end Listing

/-- Both entries are open on one node of the host. -/
def Entry.aliases (host : Host) (left right : Entry) : Bool :=
  let node := host.node? left.stream.descriptor
  node.isSome && node == host.node? right.stream.descriptor

namespace Files

/-- Name, mode and position of an open file, with its flags. -/
def describeEntry (entry : Entry) : StateM Files String := do
  let answer ← (run entry Transfer.position).run
  let state :=
    match answer with
    | .ok position =>
        ", pos " ++ Positional.decimal position ++ (if entry.stream.failed then ", error" else "")
          ++ (if entry.stream.eof then ", eof" else "")
    | .error _ => if entry.id.isStandard then "" else ", position unknown"
  return "FILE " ++ entry.id.display ++ " \"" ++ entry.name ++ "\" (" ++ entry.mode.display ++ state
    ++ ")"

/-- What is known of a handle. Without `full` it is only the quoted name. -/
def describe (id : FileId) (full : Bool) : StateM Files String := do
  match (← get).table.find? id, full with
  | none, true => return "FILE " ++ id.display ++ " closed"
  | none, false => return "\"\""
  | some entry, true => describeEntry entry
  | some entry, false => return "\"" ++ entry.name ++ "\""

/-- The line of the first entry on a node, with the size of the node on `host`. -/
def headLine (host : Host) (entry : Entry) : StateM Files String := do
  let size :=
    match host.size entry.stream.descriptor with
    | .ok size => " size = " ++ Positional.decimal size
    | .error _ => ""
  return "\t" ++ (← describe entry.id true) ++ size ++ "\n"

def aliasLine (entry : Entry) : StateM Files String := do
  return "\t  = " ++ (← describe entry.id true) ++ "\n"

/-- One line for the first entry on a node, and one for each alias. -/
def groupLines (host : Host) (group : Entry × List Entry) : StateM Files String := do
  let head ← headLine host group.1
  return head ++ String.join (← group.2.mapM aliasLine)

/-- The open files, how many they are, and the last handle that was given out. -/
def listing : StateM Files String := do
  let files ← get
  let groups := Listing.groups (Entry.aliases files.host) files.table.entries
  let lines ← groups.mapM (groupLines files.host)
  let table := (← get).table
  return String.join lines ++ "\tNumber open = " ++ Positional.decimal table.entries.length
    ++ "\n\tLastid = " ++ Positional.decimal table.lastId ++ "\n"

end Files

end Calculator
