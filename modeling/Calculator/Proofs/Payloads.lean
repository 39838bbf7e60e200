import Calculator.Value.Ownership
import Mathlib.Data.List.Perm.Basic

/-!
# Payloads and their marks

A value owns numbers and texts at places inside it. The places are listed in one order, in which
storing marks those that have no mark yet, and at which handles are made and read. As long as one mark
means one payload, this is so after marking as well.
-/

namespace Calculator

/-- Which payload it is, among those that have owners. -/
inductive PayloadId where
  | number (mark : Mark)
  | text (mark : Mark)
  deriving DecidableEq, Repr

def PayloadId.mark : PayloadId → Mark
  | number mark => mark
  | text mark => mark

namespace Part

def value (protection : Protection) : Part → Value
  | number payload => ⟨.number payload, protection⟩
  | text payload => ⟨.text payload, protection⟩

def mark : Part → Option Mark
  | number payload => payload.mark
  | text payload => payload.mark

def id? : Part → Option PayloadId
  | number payload => payload.mark.map .number
  | text payload => payload.mark.map .text

def place (next : Mark) : Part → Part × Mark
  | number payload => (.number (payload.place next).1, (payload.place next).2)
  | text payload => (.text (payload.place next).1, (payload.place next).2)

/-- Places are marked in their order. -/
def placeAll (next : Mark) : List Part → List Part × Mark
  | [] => ([], next)
  | part :: rest =>
      (((part.place next).1 :: (placeAll (part.place next).2 rest).1),
        (placeAll (part.place next).2 rest).2)

theorem placeAll_append (next : Mark) (front back : List Part) :
    placeAll next (front ++ back)
      = ((placeAll next front).1 ++ (placeAll (placeAll next front).2 back).1,
          (placeAll (placeAll next front).2 back).2) := by
  induction front generalizing next with
  | nil => rfl
  | cons part rest ih => rw [List.cons_append, placeAll, ih, placeAll, List.cons_append]

theorem mark_eq (part : Part) : part.mark = part.id?.map PayloadId.mark := by
  cases part with
  | number payload =>
      rw [id?, Option.map_map]
      exact (congrFun Option.map_id payload.mark).symm
  | text payload =>
      rw [id?, Option.map_map]
      exact (congrFun Option.map_id payload.mark).symm

theorem place_of_marked {part : Part} {mark : Mark} (marked : part.mark = some mark) (next : Mark) :
    part.place next = (part, next) := by
  have kept {α : Type} {payload : Payload α} (owned : payload.mark = some mark) :
      payload.place next = (payload, next) := by
    rw [Payload.place, owned]
  cases part with
  | number payload => rw [place, kept marked]
  | text payload => rw [place, kept marked]

theorem place_of_unmarked {part : Part} (unmarked : part.mark = none) (next : Mark) :
    (part.place next).1.mark = some next ∧ (part.place next).2 = next + 1 := by
  have fresh {α : Type} {payload : Payload α} (free : payload.mark = none) :
      payload.place next = ({ payload with mark := some next }, next + 1) := by
    rw [Payload.place, free]
  cases part with
  | number payload =>
      rw [place, fresh unmarked]
      exact ⟨rfl, rfl⟩
  | text payload =>
      rw [place, fresh unmarked]
      exact ⟨rfl, rfl⟩

def owns (id : PayloadId) (part : Part) : Bool :=
  part.id? == some id

def owners (parts : List Part) (id : PayloadId) : Nat :=
  parts.countP (owns id)

end Part

mutual

theorem Value.parts_place (next : Mark) (value : Value) :
    Part.placeAll next value.parts = ((value.place next).1.parts, (value.place next).2) := by
  match value with
  | ⟨data, _⟩ =>
      rw [Value.place, Value.parts, Value.parts]
      exact Value.partsOfData_place next data
termination_by structural value

theorem Value.partsOfData_place (next : Mark) (data : Data Value) :
    Part.placeAll next (Value.partsOfData data)
      = (Value.partsOfData (Value.placeData next data).1, (Value.placeData next data).2) := by
  match data with
  | .matrix _ slots => exact Value.partsOfList_place next slots
  | .list items => exact Value.partsOfList_place next items
  | .association entries => exact Value.partsOfEntries_place next entries
  | .octet (.text _) _ | .octet (.namedBlock _) _ => rfl
  | .null | .number _ | .complex _ _ | .text _ | .block _ | .namedBlock _ | .file _ | .error _ => rfl
termination_by structural data

theorem Value.partsOfList_place (next : Mark) (values : List Value) :
    Part.placeAll next (Value.partsOfList values)
      = (Value.partsOfList (Value.placeList next values).1, (Value.placeList next values).2) := by
  match values with
  | [] => rfl
  | value :: rest =>
      rw [Value.placeList, Value.partsOfList, Value.partsOfList, Part.placeAll_append,
        Value.parts_place next value, Value.partsOfList_place _ rest]
termination_by structural values

theorem Value.partsOfEntries_place (next : Mark) (entries : List (List Value × Value)) :
    Part.placeAll next (Value.partsOfEntries entries)
      = (Value.partsOfEntries (Value.placeEntries next entries).1,
          (Value.placeEntries next entries).2) := by
  match entries with
  | [] => rfl
  | entry :: rest =>
      rw [Value.placeEntries, Value.partsOfEntries, Value.partsOfEntries, Part.placeAll_append,
        Value.partsOfEntry_place next entry, Value.partsOfEntries_place _ rest]
termination_by structural entries

theorem Value.partsOfEntry_place (next : Mark) (entry : List Value × Value) :
    Part.placeAll next (Value.partsOfEntry entry)
      = (Value.partsOfEntry (Value.placeEntry next entry).1, (Value.placeEntry next entry).2) := by
  match entry with
  | (key, value) =>
      rw [Value.placeEntry, Value.partsOfEntry, Value.partsOfEntry, Part.placeAll_append,
        Value.partsOfList_place next key, Value.parts_place _ value]
termination_by structural entry

end

def Part.visit (visit : Visit) : Part → Part
  | .number payload => .number (visit.number payload)
  | .text payload => .text (visit.text payload)

mutual

theorem Value.parts_visit (visit : Visit) (value : Value) :
    (value.visit visit).parts = value.parts.map (Part.visit visit) := by
  match value with
  | ⟨data, _⟩ => exact Value.partsOfData_visit visit data
termination_by structural value

theorem Value.partsOfData_visit (visit : Visit) (data : Data Value) :
    Value.partsOfData (Value.visitData visit data)
      = (Value.partsOfData data).map (Part.visit visit) := by
  match data with
  | .matrix _ slots => exact Value.partsOfList_visit visit slots
  | .list items => exact Value.partsOfList_visit visit items
  | .association entries => exact Value.partsOfEntries_visit visit entries
  | .octet (.text _) _ | .octet (.namedBlock _) _ => rfl
  | .null | .number _ | .complex _ _ | .text _ | .block _ | .namedBlock _ | .file _ | .error _ => rfl
termination_by structural data

theorem Value.partsOfList_visit (visit : Visit) (values : List Value) :
    Value.partsOfList (Value.visitList visit values)
      = (Value.partsOfList values).map (Part.visit visit) := by
  match values with
  | [] => rfl
  | value :: rest =>
      rw [Value.visitList, Value.partsOfList, Value.partsOfList, List.map_append,
        Value.parts_visit visit value, Value.partsOfList_visit visit rest]
termination_by structural values

theorem Value.partsOfEntries_visit (visit : Visit) (entries : List (List Value × Value)) :
    Value.partsOfEntries (Value.visitEntries visit entries)
      = (Value.partsOfEntries entries).map (Part.visit visit) := by
  match entries with
  | [] => rfl
  | entry :: rest =>
      rw [Value.visitEntries, Value.partsOfEntries, Value.partsOfEntries, List.map_append,
        Value.partsOfEntry_visit visit entry, Value.partsOfEntries_visit visit rest]
termination_by structural entries

theorem Value.partsOfEntry_visit (visit : Visit) (entry : List Value × Value) :
    Value.partsOfEntry (Value.visitEntry visit entry)
      = (Value.partsOfEntry entry).map (Part.visit visit) := by
  match entry with
  | (key, value) =>
      rw [Value.visitEntry, Value.partsOfEntry, Value.partsOfEntry, List.map_append,
        Value.partsOfList_visit visit key, Value.parts_visit visit value]
termination_by structural entry

end

section Visits

variable {one two : Visit}

mutual

theorem Value.visit_visit (value : Value)
    (each : ∀ part ∈ value.parts, (part.visit one).visit two = part) :
    (value.visit one).visit two = value := by
  match value with
  | ⟨data, protection⟩ => exact congrArg (Value.mk · protection) (Value.visitData_visit data each)
termination_by structural value

theorem Value.visitData_visit (data : Data Value)
    (each : ∀ part ∈ Value.partsOfData data, (part.visit one).visit two = part) :
    Value.visitData two (Value.visitData one data) = data := by
  match data with
  | .matrix bounds slots => exact congrArg (Data.matrix bounds) (Value.visitList_visit slots each)
  | .list items => exact congrArg Data.list (Value.visitList_visit items each)
  | .association entries => exact congrArg Data.association (Value.visitEntries_visit entries each)
  | .number payload =>
      have same := each (.number payload) (List.mem_singleton_self _)
      exact congrArg Data.number (Part.number.inj same)
  | .complex re im =>
      have left := each (.number re) List.mem_cons_self
      have right := each (.number im) (List.mem_cons_of_mem _ List.mem_cons_self)
      exact congrArg₂ Data.complex (Part.number.inj left) (Part.number.inj right)
  | .text payload =>
      have same := each (.text payload) (List.mem_singleton_self _)
      exact congrArg Data.text (Part.text.inj same)
  | .octet (.text payload) index =>
      have same := each (.text payload) (List.mem_singleton_self _)
      exact congrArg (Data.octet · index) (congrArg OctetTarget.text (Part.text.inj same))
  | .octet (.namedBlock _) _ => rfl
  | .null | .block _ | .namedBlock _ | .file _ | .error _ => rfl
termination_by structural data

theorem Value.visitList_visit (values : List Value)
    (each : ∀ part ∈ Value.partsOfList values, (part.visit one).visit two = part) :
    Value.visitList two (Value.visitList one values) = values := by
  match values with
  | [] => rfl
  | value :: rest =>
      obtain ⟨first, others⟩ := List.forall_mem_append.mp each
      rw [Value.visitList, Value.visitList, Value.visit_visit value first,
        Value.visitList_visit rest others]
termination_by structural values

theorem Value.visitEntries_visit (entries : List (List Value × Value))
    (each : ∀ part ∈ Value.partsOfEntries entries, (part.visit one).visit two = part) :
    Value.visitEntries two (Value.visitEntries one entries) = entries := by
  match entries with
  | [] => rfl
  | entry :: rest =>
      obtain ⟨first, others⟩ := List.forall_mem_append.mp each
      rw [Value.visitEntries, Value.visitEntries, Value.visitEntry_visit entry first,
        Value.visitEntries_visit rest others]
termination_by structural entries

theorem Value.visitEntry_visit (entry : List Value × Value)
    (each : ∀ part ∈ Value.partsOfEntry entry, (part.visit one).visit two = part) :
    Value.visitEntry two (Value.visitEntry one entry) = entry := by
  match entry with
  | (key, value) =>
      obtain ⟨first, others⟩ := List.forall_mem_append.mp each
      rw [Value.visitEntry, Value.visitEntry, Value.visitList_visit key first,
        Value.visit_visit value others]
termination_by structural entry

end

end Visits

/-- Marks are below the next one, and places with one mark own one payload. -/
structure Known (next : Mark) (parts : List Part) : Prop where
  below : ∀ part ∈ parts, ∀ mark, part.mark = some mark → mark < next
  coherent : ∀ one ∈ parts, ∀ other ∈ parts, ∀ id, one.id? = some id → other.id? = some id →
    one = other

namespace Known

variable {next : Mark} {parts others : List Part}

theorem mono (known : Known next parts) (fewer : ∀ part ∈ others, part ∈ parts) :
    Known next others where
  below := fun part member => known.below part (fewer part member)
  coherent := fun one member other also =>
    known.coherent one (fewer one member) other (fewer other also)

theorem drawn (known : Known next parts)
    (each : ∀ part ∈ others, part.mark = none ∨ part ∈ parts) : Known next others where
  below := by
    intro part member mark marked
    rcases each part member with free | old
    · rw [free] at marked
      cases marked
    · exact known.below part old mark marked
  coherent := by
    have old {part : Part} (member : part ∈ others) {id : PayloadId} (owned : part.id? = some id) :
        part ∈ parts := by
      rcases each part member with free | old
      · rw [part.mark_eq, owned] at free
        cases free
      · exact old
    intro one member other also id first second
    exact known.coherent one (old member first) other (old also second) id first second

theorem weaken (known : Known next parts) {later : Mark} (more : next ≤ later) :
    Known later parts where
  below := fun part member mark marked => Nat.lt_of_lt_of_le (known.below part member mark marked) more
  coherent := known.coherent

theorem number_eq (known : Known next parts) {one other : Payload Number} {mark : Mark}
    (first : .number one ∈ parts) (second : .number other ∈ parts) (tag : one.mark = some mark)
    (same : other.mark = some mark) : one = other :=
  Part.number.inj (known.coherent _ first _ second (.number mark)
    (congrArg (Option.map PayloadId.number) tag) (congrArg (Option.map PayloadId.number) same))

theorem text_eq (known : Known next parts) {one other : Payload Bytes} {mark : Mark}
    (first : .text one ∈ parts) (second : .text other ∈ parts) (tag : one.mark = some mark)
    (same : other.mark = some mark) : one = other :=
  Part.text.inj (known.coherent _ first _ second (.text mark)
    (congrArg (Option.map PayloadId.text) tag) (congrArg (Option.map PayloadId.text) same))

theorem owners_of_later (known : Known next parts) {id : PayloadId} (later : next ≤ id.mark) :
    Part.owners parts id = 0 := by
  rw [Part.owners, List.countP_eq_zero]
  intro part member owned
  have marked : part.mark = some id.mark := by
    rw [part.mark_eq, beq_iff_eq.mp owned]
    rfl
  exact Nat.not_lt.mpr later (known.below part member id.mark marked)

theorem cons (known : Known next parts) {part : Part}
    (below : ∀ mark, part.mark = some mark → mark < next)
    (alone : ∀ id, part.id? = some id → ∀ other ∈ parts, other.id? ≠ some id) :
    Known next (part :: parts) where
  below := by
    intro one member
    rcases List.mem_cons.mp member with rfl | old
    · exact below
    · exact known.below one old
  coherent := by
    intro one member other also id first second
    rcases List.mem_cons.mp member with rfl | old
    · rcases List.mem_cons.mp also with rfl | older
      · rfl
      · exact absurd second (alone id first other older)
    · rcases List.mem_cons.mp also with rfl | older
      · exact absurd first (alone id second one old)
      · exact known.coherent one old other older id first second

theorem placeAll (known : Known next (parts ++ others)) :
    Known (Part.placeAll next parts).2 ((Part.placeAll next parts).1 ++ others)
      ∧ (∀ part ∈ (Part.placeAll next parts).1, part.mark.isSome)
      ∧ next ≤ (Part.placeAll next parts).2 := by
  induction parts generalizing next others with
  | nil => exact ⟨known, nofun, Nat.le_refl _⟩
  | cons part rest ih =>
      rw [Part.placeAll]
      cases marked : part.mark with
      | some mark =>
          rw [Part.place_of_marked marked]
          have moved : Known next (rest ++ part :: others) := known.mono fun other member =>
            List.perm_middle.mem_iff.mp member
          obtain ⟨placed, all, more⟩ := ih moved
          refine ⟨placed.mono fun other member => List.perm_middle.mem_iff.mpr member, ?_, more⟩
          exact List.forall_mem_cons.mpr ⟨by rw [marked]; rfl, all⟩
      | none =>
          obtain ⟨fresh, step⟩ := Part.place_of_unmarked marked next
          rw [step]
          generalize (part.place next).1 = new at fresh
          -- The mark is new, so that no other place can have it.
          have grown : Known (next + 1) (new :: (rest ++ others)) := by
            have fewer : Known next (rest ++ others) := known.mono fun other member =>
              List.mem_cons_of_mem part member
            apply (fewer.weaken (Nat.le_succ next)).cons
            · intro mark owned
              cases fresh.symm.trans owned
              exact Nat.lt_succ_self next
            · intro id owned other member same
              have equal : other.mark = some next := by
                rw [other.mark_eq, same, ← owned, ← new.mark_eq, fresh]
              exact Nat.lt_irrefl next (fewer.below other member next equal)
          have moved : Known (next + 1) (rest ++ new :: others) := grown.mono fun other member =>
            List.perm_middle.mem_iff.mp member
          obtain ⟨placed, all, more⟩ := ih moved
          refine ⟨placed.mono fun other member => List.perm_middle.mem_iff.mpr member, ?_,
            Nat.le_trans (Nat.le_succ next) more⟩
          exact List.forall_mem_cons.mpr ⟨by rw [fresh]; rfl, all⟩

end Known

end Calculator
