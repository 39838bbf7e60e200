import Calculator.Proofs.Payloads
import Calculator.Proofs.RegistryStep

/-!
# Where payloads are drawn from

A copy or a builtin returns a value whose payloads are new, or are some that it was given. A text that
is the destination of a copy is the exception: where its owner is the only one, the payload itself is
written over.
-/

namespace Calculator

namespace Value

def Drawn (parts : List Part) (value : Value) : Prop :=
  ∀ part ∈ value.parts, part.mark = none ∨ part ∈ parts

theorem parts_eq (value : Value) : value.parts = partsOfData value.data := by
  cases value
  rfl

theorem partsOfList_eq (values : List Value) : partsOfList values = values.flatMap parts := by
  induction values with
  | nil => rfl
  | cons value rest ih => rw [partsOfList, ih, List.flatMap_cons]

variable {places more : List Part} {value : Value}

theorem drawn_self (value : Value) : value.Drawn value.parts :=
  fun _ member => .inr member

theorem Drawn.mono (drawn : value.Drawn places) (wider : ∀ part ∈ places, part ∈ more) :
    value.Drawn more :=
  fun part member => (drawn part member).imp_right (wider part)

theorem Drawn.trans (drawn : value.Drawn places)
    (each : ∀ part ∈ places, part.mark = none ∨ part ∈ more) : value.Drawn more :=
  fun part member => (drawn part member).elim .inl (each part)

theorem Drawn.protect (drawn : value.Drawn places) (bits : Protection) :
    (value.protect bits).Drawn places := by
  rw [Drawn, parts_eq] at drawn ⊢
  exact drawn

theorem drawn_of_none (none : partsOfData value.data = []) : value.Drawn places := by
  intro part member
  rw [parts_eq, none] at member
  cases member

theorem drawn_of_slots {slots : List Value} (held : partsOfData value.data = partsOfList slots) :
    value.Drawn places ↔ ∀ slot ∈ slots, slot.Drawn places := by
  rw [Drawn, parts_eq, held, partsOfList_eq]
  simp only [List.mem_flatMap]
  constructor
  · intro all slot member part within
    exact all part ⟨slot, member, within⟩
  · rintro all part ⟨slot, member, within⟩
    exact all slot member part within

theorem Bare.drawn (bare : value.Bare) : value.Drawn places := by
  intro part member
  left
  rw [parts_eq] at member
  rw [Bare, isBare] at bare
  split at bare
  case h_1 held | h_2 held | h_3 held | h_4 held =>
    rw [held] at member
    cases member
  case h_5 held | h_6 held =>
    rw [held] at member
    rw [List.mem_singleton.mp member]
    exact Option.isNone_iff_eq_none.mp bare
  case h_7 => cases bare

end Value

theorem Effect.upholds_true {ε σ α : Type} (program : ExceptT ε (StateM σ) α) :
    Upholds (fun _ => True) program fun _ => True :=
  fun _ _ => ⟨trivial, fun _ _ => trivial⟩

namespace Copy

open Effect (Upholds upholds_true)

/-- What a copy returns: the destination, or what it was with other content. -/
inductive Returns (source destination : Value) (exclusive : Bool) : Value → Prop where
  | same : Returns source destination exclusive destination
  | block (block : Block) :
      Returns source destination exclusive { destination with data := .block block }
  | number (number : Number) :
      Returns source destination exclusive { destination with data := .number (.fresh number) }
  | text {payload : Payload Bytes} (held : destination.data = .text payload) (bytes : Bytes)
      (position : Int) :
      Returns source destination exclusive
        { destination with data := .text (intoText payload exclusive bytes position) }
  | slots {data : Data Value} {old values new : List Value} {position : Int}
      (held : Value.partsOfData destination.data = Value.partsOfList old)
      (chosen : ∀ value ∈ values, value.Drawn source.parts)
      (placed : intoSlots old values position = .ok new)
      (made : Value.partsOfData data = Value.partsOfList new) :
      Returns source destination exclusive { destination with data }

section Routes

variable {source destination : Value} {exclusive : Bool}

theorem changeBlock_returns (change : Block → Bool → Except CopyError Block) :
    Upholds (fun _ => True) (changeBlock destination change) (Returns source destination exclusive) := by
  unfold changeBlock
  dsimp only
  split
  · exact Upholds.lift_bind fun changed _ => Upholds.pure (.block changed)
  · apply Upholds.get_bind
    intro machine _
    split
    · exact Upholds.throw _
    · split
      · exact Upholds.throw _
      · exact Upholds.lift_bind fun _ _ =>
          Upholds.bind_any (Upholds.set trivial) fun _ => Upholds.pure .same
  · exact Upholds.throw _

theorem fileIntoBlock_returns (id : FileId) (start : Nat) (count position : Int) :
    Upholds (fun _ => True) (fileIntoBlock id start count destination position)
      (Returns source destination exclusive) := by
  unfold fileIntoBlock
  dsimp only
  split
  · exact Upholds.throw_bind _ _
  apply Upholds.bind_any (upholds_true _)
  intro size
  split
  · exact Upholds.throw_bind _ _
  split
  · exact Upholds.pure .same
  apply Upholds.bind_any (upholds_true _)
  intro _
  apply Upholds.bind_any (upholds_true _)
  intro bytes
  split
  · exact Upholds.throw_bind _ _
  · exact changeBlock_returns _

theorem elements_drawn {blocks : NamedBlocks} {start : Nat} {count : Int} {values : List Value}
    (selected : elements blocks source start count = .ok values) :
    ∀ value ∈ values, value.Drawn source.parts := by
  refine elements_each ?_ (fun _ => Value.Bare.drawn rfl) selected
  rintro slots (⟨bounds, held⟩ | held)
  · exact (Value.drawn_of_slots (by rw [held, Value.partsOfData])).mp source.drawn_self
  · exact (Value.drawn_of_slots (by rw [held, Value.partsOfData])).mp source.drawn_self

theorem route_returns (start : Nat) (count position : Int) :
    Upholds (fun _ => True) (route source start count destination position exclusive)
      (Returns source destination exclusive) := by
  unfold route
  apply Upholds.get_bind
  intro machine _
  dsimp only
  split
  · exact lift_bind_upholds _ .same fun bytes _ => Upholds.pure (.number _)
  · rename_i payload held
    exact lift_bind_upholds _ .same fun bytes _ => Upholds.pure (.text held bytes position)
  · apply lift_bind_upholds _ .same
    intro bytes _
    exact Upholds.bind_any (upholds_true _) fun _ => Upholds.pure .same
  · rename_i bounds slots held
    apply lift_bind_upholds _ .same
    intro values selected
    apply Upholds.lift_bind
    intro result placed
    exact Upholds.pure (.slots (by rw [held, Value.partsOfData]) (elements_drawn selected) placed rfl)
  · rename_i items held
    apply lift_bind_upholds _ .same
    intro values selected
    apply Upholds.lift_bind
    intro result placed
    exact Upholds.pure (.slots (by rw [held, Value.partsOfData]) (elements_drawn selected) placed rfl)
  · split
    · exact fileIntoBlock_returns _ start count position
    · exact lift_bind_upholds _ .same fun bytes _ => changeBlock_returns _

theorem copy_returns (start count position : Int) :
    Upholds (fun _ => True) (copy source start count destination position exclusive)
      (Returns source destination exclusive) := by
  intro machine _
  rw [copy_run]
  split
  · exact route_returns start.toNat count position machine trivial
  · exact ⟨trivial, nofun⟩

theorem fill_returns (byte : UInt8) (count start : Int) :
    Upholds (fun _ => True) (fill destination byte count start)
      (Returns source destination exclusive) := by
  rw [fill_eq]
  apply Upholds.get_bind
  intro machine _
  apply Upholds.lift_bind
  intro _ _
  split
  · exact Upholds.throw_bind _ _
  · exact changeBlock_returns _

/-- A text is written over in place only for its one owner; all else is drawn. -/
theorem Returns.drawn_or_written {value : Value}
    (returned : Returns source destination exclusive value) :
    value.Drawn (source.parts ++ destination.parts)
      ∨ exclusive = true ∧ ∃ payload content, destination.data = .text payload
          ∧ value = { destination with data := .text { payload with content } } := by
  have own : destination.Drawn (source.parts ++ destination.parts) :=
    destination.drawn_self.mono fun _ member => List.mem_append_right _ member
  cases returned with
  | same => exact .inl own
  | block block => exact .inl (Value.drawn_of_none rfl)
  | number number => exact .inl (Value.Bare.drawn rfl)
  | @text payload held bytes position =>
      unfold intoText
      dsimp only
      split
      · have same : ({ destination with data := .text payload } : Value) = destination := by
          cases destination
          cases held
          rfl
        rw [same]
        exact .inl own
      · cases exclusive with
        | false => exact .inl (Value.Bare.drawn rfl)
        | true => exact .inr ⟨rfl, payload, _, held, rfl⟩
  | slots held chosen placed made =>
      left
      have protect (value : Value) (bits : Protection) :
          value.Drawn (source.parts ++ destination.parts) →
            (value.protect bits).Drawn (source.parts ++ destination.parts) :=
        fun drawn => drawn.protect bits
      rw [Value.drawn_of_slots made]
      refine intoSlots_each protect ?_ ?_ placed
      · exact (Value.drawn_of_slots held).mp own
      · intro value member
        exact (chosen value member).mono fun _ within => List.mem_append_left _ within

/-- What a copy returns is known beside all places but those of a text that it writes over. -/
theorem Returns.known {value : Value} {next : Mark} {places rest : List Part}
    (returned : Returns source destination exclusive value) (known : Known next places)
    (given : ∀ part ∈ source.parts ++ destination.parts, part ∈ places)
    (others : ∀ part ∈ rest, part ∈ places)
    (alone : exclusive = true → ∀ payload, destination.data = .text payload →
      ∀ id, (Part.text payload).id? = some id → ∀ other ∈ rest, other.id? ≠ some id) :
    Known next (value.parts ++ rest) := by
  rcases returned.drawn_or_written with drawn | ⟨only, payload, content, held, rfl⟩
  · apply known.drawn
    intro part member
    rcases List.mem_append.mp member with new | old
    · exact (drawn part new).imp_right (given part)
    · exact .inr (others part old)
  · have member : Part.text payload ∈ places := by
      apply given
      rw [List.mem_append, destination.parts_eq, held]
      exact .inr (List.mem_singleton_self _)
    exact (known.mono others).cons (fun mark owned => known.below (.text payload) member mark owned)
      (alone only payload held)

end Routes

end Copy

namespace Builtin

open Effect (Upholds upholds_true)

variable (arguments : List Value)

theorem argument_drawn (index : Nat) :
    (argument arguments index).Drawn (Value.partsOfList arguments) := by
  rw [argument, List.getD_eq_getElem?_getD]
  cases found : arguments[index]? with
  | none => exact Value.drawn_of_none rfl
  | some value =>
      refine value.drawn_self.mono fun part within => ?_
      rw [Value.partsOfList_eq, List.mem_flatMap]
      exact ⟨value, List.mem_of_getElem? found, within⟩

theorem blk_draws :
    Upholds (fun _ => True) (blk arguments) (Value.Drawn (Value.partsOfList arguments)) := by
  have anonymous : Upholds (fun _ => True) (blk.anonymous arguments)
      (Value.Drawn (Value.partsOfList arguments)) := by
    apply Upholds.bind_any (upholds_true _)
    intro settings
    exact Upholds.get_bind fun machine _ => Upholds.pure (Value.drawn_of_none rfl)
  unfold blk
  split
  · rename_i target rest
    refine Upholds.ite ?_ anonymous
    apply Upholds.bind_any (upholds_true _)
    rintro ⟨length, chunk⟩
    dsimp only
    split
    · exact Upholds.bind_any (upholds_true _) fun _ => Upholds.pure (Value.drawn_of_none rfl)
    · exact Upholds.bind_any (upholds_true _) fun _ => Upholds.pure (Value.drawn_of_none rfl)
    · exact Upholds.pure (Value.drawn_of_none rfl)
    · exact Upholds.throw _
  · exact anonymous

theorem blkfree_draws :
    Upholds (fun _ => True) (blkfree arguments) (Value.Drawn (Value.partsOfList arguments)) := by
  have null : Upholds (fun _ => True) (pure Value.null : BuiltinM Value)
      (Value.Drawn (Value.partsOfList arguments)) := Upholds.pure (Value.drawn_of_none rfl)
  unfold blkfree
  split
  · exact Upholds.bind_any (upholds_true _) fun _ => null
  · exact Upholds.bind_any (upholds_true _) fun _ => null
  · exact Upholds.bind_any (upholds_true _) fun _ => Upholds.bind_any (upholds_true _) fun _ => null
  · exact Upholds.throw_bind _ _

theorem blocks_draws :
    Upholds (fun _ => True) (blocks arguments) (Value.Drawn (Value.partsOfList arguments)) := by
  apply Upholds.get_bind
  intro machine _
  dsimp only
  split
  · exact Upholds.pure (Value.Bare.drawn rfl)
  · apply Upholds.bind_any (upholds_true _)
    intro number
    exact Upholds.ite (Upholds.throw_bind _ _) (Upholds.pure (Value.Bare.drawn rfl))

theorem copyValues_draws (source destination : Nat) (start count position : Int) :
    Upholds (fun _ => True)
      (copyValues (argument arguments source) (argument arguments destination) start count position)
      (Value.Drawn (Value.partsOfList arguments)) := by
  apply copyValues_upholds
  intro machine _
  refine ⟨trivial, ?_⟩
  intro value answered
  have returned := (Copy.copy_returns start count position machine trivial).2 value answered
  rcases returned.drawn_or_written with drawn | ⟨written, _⟩
  · apply drawn.trans
    intro part member
    rcases List.mem_append.mp member with held | held
    · exact argument_drawn arguments source part held
    · exact argument_drawn arguments destination part held
  · cases written

theorem copy_draws :
    Upholds (fun _ => True) (copy arguments) (Value.Drawn (Value.partsOfList arguments)) :=
  Upholds.bind_any (upholds_true _) fun _ => Upholds.bind_any (upholds_true _) fun _ =>
    Upholds.bind_any (upholds_true _) fun _ => copyValues_draws arguments 0 1 _ _ _

theorem blkcpy_draws :
    Upholds (fun _ => True) (blkcpy arguments) (Value.Drawn (Value.partsOfList arguments)) :=
  Upholds.bind_any (upholds_true _) fun _ => Upholds.bind_any (upholds_true _) fun _ =>
    Upholds.bind_any (upholds_true _) fun _ => copyValues_draws arguments 1 0 _ _ _

end Builtin

theorem Registry.standard_call_draws (name : String) (arguments : List Value) :
    Effect.Upholds (fun _ => True) (standard.call name arguments)
      (Value.Drawn (Value.partsOfList arguments)) :=
  standard_call_turns (fun _ _ => trivial) (fun _ => Value.Bare.drawn) (fun _ _ _ => trivial) name
    (fun _ => Builtin.blk_draws arguments) (Builtin.blkfree_draws arguments)
    (Builtin.blocks_draws arguments) (Builtin.copy_draws arguments) (Builtin.blkcpy_draws arguments)

end Calculator
