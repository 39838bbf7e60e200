import Calculator.Copy.Gateway

/-!
# What a copy is permitted by

A copy is permitted by the protection of its two values and of the named blocks that they stand for, by
their kinds and by the sign of the source index. Each check says the same of every block and of every
pair of kinds; here they are said together.
-/

namespace Calculator

/-- The named block exists, is not freed, and does not have the protection bit. -/
def NamedBlocks.Permits (blocks : NamedBlocks) (id : BlockId) (bit : Protection) : Prop :=
  ∃ named, blocks.get? id = some named ∧ named.protection.contains bit = false
    ∧ named.block.isSome = true

namespace Copy

variable {blocks : NamedBlocks} {source destination : Value}

theorem then_ok_iff {ε : Type} {first second : Except ε Unit} :
    (first >>= fun _ => second) = .ok () ↔ first = .ok () ∧ second = .ok () := by
  cases first with
  | error error => simp [bind, Except.bind]
  | ok _ => simp [bind, Except.bind]

theorem checkSourceBlock_ok_iff (id : BlockId) :
    checkSourceBlock blocks id = .ok () ↔ blocks.Permits id Protection.noCopyFrom := by
  unfold checkSourceBlock NamedBlocks.Permits
  cases blocks.get? id with
  | none => simp
  | some named =>
      cases shielded : named.protection.contains Protection.noCopyFrom <;>
        cases stored : named.block <;> simp [shielded, stored]

theorem checkDestinationBlock_ok_iff (id : BlockId) :
    checkDestinationBlock blocks id = .ok () ↔ blocks.Permits id Protection.noCopyTo := by
  unfold checkDestinationBlock NamedBlocks.Permits
  cases blocks.get? id with
  | none => simp
  | some named =>
      cases shielded : named.protection.contains Protection.noCopyTo <;>
        cases stored : named.block <;> simp [shielded, stored]

/-- Neither a value of the copy nor a named block that it stands for is protected against it. -/
structure Unprotected (blocks : NamedBlocks) (source destination : Value) : Prop where
  taken : source.protection.contains Protection.noCopyFrom = false
  given : destination.protection.contains Protection.noCopyTo = false
  readable : ∀ id ∈ sourceBlock? source, blocks.Permits id Protection.noCopyFrom
  writable : ∀ id ∈ destinationBlock? destination, blocks.Permits id Protection.noCopyTo

/-- A check that there may be no block for. -/
theorem check_ok_iff {check : BlockId → Except CopyError Unit} {passes : BlockId → Prop}
    (checks : ∀ id, check id = .ok () ↔ passes id) (block? : Option BlockId) :
    (match block? with
      | some id => check id
      | none => .ok ()) = .ok () ↔ ∀ id ∈ block?, passes id := by
  cases block? with
  | none => simp
  | some id => simp [checks]

theorem checkProtection_ok_iff :
    checkProtection blocks source destination = .ok () ↔ Unprotected blocks source destination := by
  have onSource := check_ok_iff (fun id => @checkSourceBlock_ok_iff blocks id) (sourceBlock? source)
  have onDestination := check_ok_iff (fun id => @checkDestinationBlock_ok_iff blocks id)
    (destinationBlock? destination)
  have steps : checkProtection blocks source destination
      = if source.protection.contains Protection.noCopyFrom then .error .sourceProtected
        else if destination.protection.contains Protection.noCopyTo then .error .destinationProtected
        else (match sourceBlock? source with
            | some id => checkSourceBlock blocks id
            | none => .ok ()) >>= fun _ =>
          match destinationBlock? destination with
          | some id => checkDestinationBlock blocks id
          | none => .ok () := by
    unfold checkProtection
    cases source.protection.contains Protection.noCopyFrom <;>
      cases destination.protection.contains Protection.noCopyTo <;>
      cases sourceBlock? source <;> rfl
  rw [steps]
  by_cases taken : source.protection.contains Protection.noCopyFrom = true
  · rw [if_pos taken]
    exact iff_of_false nofun fun free => by simp [free.taken] at taken
  · rw [if_neg taken]
    by_cases given : destination.protection.contains Protection.noCopyTo = true
    · rw [if_pos given]
      exact iff_of_false nofun fun free => by simp [free.given] at given
    · rw [if_neg given, then_ok_iff, onSource, onDestination]
      exact ⟨fun ⟨readable, writable⟩ => ⟨by simpa using taken, by simpa using given, readable, writable⟩,
        fun free => ⟨free.readable, free.writable⟩⟩

/-- There is a route between the kinds, and neither is one that is never copied. -/
def Routed (source destination : Kind) : Prop :=
  neverSource source = false ∧ neverDestination destination = false
    ∧ isRoute source destination = true

/-- All that is checked before a copy begins. -/
def permit (blocks : NamedBlocks) (source : Value) (start : Int) (destination : Value) :
    Except CopyError Unit := do
  checkProtection blocks source destination
  checkKinds source.kind destination.kind
  if start < 0 then throw .negativeIndex
  if !isRoute source.kind destination.kind then
    throw (.unsupported source.kind destination.kind)

theorem permit_checks {start : Int} :
    permit blocks source start destination = .ok ()
      ↔ checkProtection blocks source destination = .ok ()
        ∧ checkKinds source.kind destination.kind = .ok () ∧ 0 ≤ start
        ∧ isRoute source.kind destination.kind = true := by
  have steps : permit blocks source start destination
      = checkProtection blocks source destination >>= fun _ =>
        checkKinds source.kind destination.kind >>= fun _ =>
          if start < 0 then .error .negativeIndex
          else if isRoute source.kind destination.kind then .ok ()
          else .error (.unsupported source.kind destination.kind) := by
    unfold permit
    cases checkProtection blocks source destination with
    | error reason => rfl
    | ok _ =>
        cases checkKinds source.kind destination.kind with
        | error reason => rfl
        | ok _ =>
            by_cases negative : start < 0
            · rw [if_pos negative, if_pos negative]
              rfl
            · rw [if_neg negative, if_neg negative]
              cases isRoute source.kind destination.kind <;> rfl
  rw [steps, then_ok_iff, then_ok_iff, ← Int.not_lt]
  by_cases negative : start < 0 <;> cases isRoute source.kind destination.kind <;> simp [negative]

theorem permit_ok_iff {start : Int} :
    permit blocks source start destination = .ok ()
      ↔ Unprotected blocks source destination ∧ Routed source.kind destination.kind ∧ 0 ≤ start := by
  rw [permit_checks, checkProtection_ok_iff, checkKinds, Routed]
  cases neverSource source.kind <;> cases neverDestination destination.kind <;>
    simp [and_comm]

end Copy

end Calculator
