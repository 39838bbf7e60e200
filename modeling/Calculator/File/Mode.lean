import Calculator.Host.Path

/-!
# Open modes

A mode is `r`, `w` or `a`, then at most one `b` and at most one `+` in either order. It is shown with
the `b` first.
-/

namespace Calculator

inductive ModeBase where
  | read
  | write
  | append
  deriving DecidableEq, Repr

structure Mode where
  base : ModeBase
  binary : Bool
  update : Bool
  deriving DecidableEq, Repr

namespace Mode

def base? : Char → Option ModeBase
  | 'r' => some .read
  | 'w' => some .write
  | 'a' => some .append
  | _ => none

def parse? (text : String) : Option Mode :=
  match text.toList with
  | [] => none
  | first :: suffix =>
      match base? first, suffix with
      | none, _ => none
      | some base, [] => some { base, binary := false, update := false }
      | some base, ['b'] => some { base, binary := true, update := false }
      | some base, ['+'] => some { base, binary := false, update := true }
      | some base, ['b', '+'] => some { base, binary := true, update := true }
      | some base, ['+', 'b'] => some { base, binary := true, update := true }
      | some _, _ => none

def display (mode : Mode) : String :=
  (match mode.base with
    | .read => "r"
    | .write => "w"
    | .append => "a")
  ++ (if mode.binary then "b" else "") ++ (if mode.update then "+" else "")

/-- The mode of a descriptor that was opened elsewhere. -/
def ofAccess (access : Access) : Mode :=
  match access.reads, access.writes with
  | true, true => { base := .read, binary := false, update := true }
  | false, true => { base := .write, binary := false, update := false }
  | _, false => { base := .read, binary := false, update := false }

def reading (mode : Mode) : Bool :=
  mode.base == .read || mode.update

def writing (mode : Mode) : Bool :=
  mode.base != .read || mode.update

def appending (mode : Mode) : Bool :=
  mode.base == .append

/-- What the host is asked for. -/
def request (mode : Mode) : OpenRequest where
  access := { reads := mode.reading, writes := mode.writing }
  create := mode.base != .read
  truncate := mode.base == .write
  append := mode.base == .append

end Mode

end Calculator
