import Calculator.Proofs.DividedCopies

/-!
# Windows of texts, matrices and lists

A text, a matrix and a list keep their size when something is copied into them. What is copied stands in
a window from a place on, and everything outside the window stays. A text takes the bytes as far as it
reaches; a slot takes an element and keeps its own protection as well. Bytes of a block stand in a matrix
as integers, and come back from there as the same bytes.
-/

namespace Calculator

/-- Values stand over those of a list from a place on, each merged with the one that stood there. The
list keeps its length, and all others stay. -/
structure Overlaid {α : Type} (merge : α → α → α) (old : List α) (start : Nat) (values new : List α) :
    Prop where
  length : new.length = old.length
  inside : ∀ index (held : start + index < old.length) (brought : index < values.length),
    new[start + index]? = some (merge old[start + index] values[index])
  outside : ∀ index, index < start ∨ start + values.length ≤ index → new[index]? = old[index]?

section Overlay

variable {α : Type} (merge : α → α → α) (old : List α) (start : Nat) (values : List α)

def overlay : List α :=
  old.take start ++ List.zipWith merge (old.drop start) values ++ old.drop (start + values.length)

theorem overlay_overlaid : Overlaid merge old start values (overlay merge old start values) := by
  have front : (old.take start).length = min start old.length := List.length_take
  have window : (List.zipWith merge (old.drop start) values).length
      = min (old.length - start) values.length := by
    rw [List.length_zipWith, List.length_drop]
  constructor
  case length =>
    rw [overlay, List.length_append, List.length_append, front, window, List.length_drop]
    omega
  case inside =>
    intro index held brought
    have within : index < (List.zipWith merge (old.drop start) values).length := by
      rw [window]
      omega
    have place : start + index - (old.take start).length = index := by
      rw [front]
      omega
    rw [overlay, List.append_assoc, List.getElem?_append_right (by omega), place,
      List.getElem?_append_left within, List.getElem?_eq_getElem within, List.getElem_zipWith,
      List.getElem_drop]
  case outside =>
    rintro index (before | behind)
    · by_cases held : index < old.length
      · rw [overlay, List.append_assoc, List.getElem?_append_left (by omega),
          List.getElem?_take_of_lt before]
      · have nothing : old.drop start = [] := List.drop_eq_nil_of_le (by omega)
        have rest : old.drop (start + values.length) = [] := List.drop_eq_nil_of_le (by omega)
        rw [overlay, nothing, List.zipWith_nil_left, rest, List.append_nil, List.append_nil,
          List.take_of_length_le (by omega)]
    · by_cases held : index < old.length
      · rw [overlay, List.getElem?_append_right (by rw [List.length_append]; omega), List.length_append,
          List.getElem?_drop]
        congr 1
        omega
      · rw [List.getElem?_eq_none (Nat.not_lt.mp held), List.getElem?_eq_none]
        rw [overlay, List.length_append, List.length_append, front, window, List.length_drop]
        omega

end Overlay

theorem Bytes.overwrite_take (bytes : Bytes) {start : Nat} (inside : start ≤ bytes.length)
    (written : Bytes) :
    bytes.overwrite start (written.take (bytes.length - start))
      = overlay (fun _ byte => byte) bytes start written := by
  have window : List.zipWith (fun _ byte => byte) (bytes.drop start) written
      = written.take (bytes.length - start) := by
    apply List.ext_getElem
    · rw [List.length_zipWith, List.length_drop, List.length_take]
    · intro index inside brought
      rw [List.getElem_zipWith, List.getElem_take]
  rw [overwrite, overlay, window, List.length_take]
  congr 1
  by_cases short : written.length ≤ bytes.length - start
  · rw [Nat.min_eq_right short]
  · rw [List.drop_eq_nil_of_le (by omega), List.drop_eq_nil_of_le (by omega)]

namespace Copy

variable {machine last : Machine} {blocks : NamedBlocks} {source destination after : Value}
  {start count position : Int} {exclusive : Bool}

/-- The bytes of a block. -/
def textBytes (blocks : NamedBlocks) (source : Value) : Bytes :=
  match source.data with
  | .block block => block.data
  | .namedBlock id => ((blocks.storage? id).map Block.data).getD []
  | .text payload => payload.content
  | .octet target index => ((octetBytes blocks target).drop index).takeWhile (· != 0)
  | _ => []

def byteValue (byte : UInt8) : Value :=
  Value.ofInt byte.toNat

/-- The elements that a source has for a matrix or list. -/
def slotValues (blocks : NamedBlocks) (source : Value) : List Value :=
  match source.data with
  | .matrix _ slots => slots
  | .list items => items
  | _ => (textBytes blocks source).map byteValue

theorem textBytes_of_block {block : Block} (held : blockOf blocks source = .ok block) :
    textBytes blocks source = block.data := by
  unfold textBytes
  rcases blockOf_ok held with direct | ⟨id, named, names, listed, storage⟩
  · rw [direct]
  · rw [names]
    simp only [NamedBlocks.storage?, listed, Option.bind_some, storage, Option.map_some,
      Option.getD_some]

theorem bytesForText_eq {start : Nat} {bytes : Bytes}
    (gathered : bytesForText blocks source start count = .ok bytes) :
    bytes = select (textBytes blocks source) start count := by
  unfold bytesForText at gathered
  cases shape : source.data with
  | text payload =>
      simp only [shape] at gathered
      cases gathered
      rw [textBytes, shape]
  | octet target index =>
      simp only [shape] at gathered
      cases read : octetRun blocks target index with
      | error reason => rw [read] at gathered; cases gathered
      | ok run =>
          rw [read] at gathered
          cases gathered
          rw [textBytes, shape, octetRun_eq read]
  | _ =>
      simp only [shape] at gathered
      cases held : blockOf blocks source with
      | error reason => rw [held] at gathered; cases gathered
      | ok block =>
          rw [held] at gathered
          cases gathered
          rw [textBytes_of_block held, selectBytes_eq]

theorem select_map {α β : Type} (convert : α → β) (units : List α) (start : Nat) (count : Int) :
    select (units.map convert) start count = (select units start count).map convert := by
  rw [select, select, List.length_map, List.map_take, List.map_drop]

theorem elements_eq {start : Nat} {values : List Value}
    (gathered : elements blocks source start count = .ok values) :
    values = select (slotValues blocks source) start count := by
  unfold elements at gathered
  cases shape : source.data with
  | matrix bounds slots =>
      simp only [shape] at gathered
      cases gathered
      rw [slotValues, shape]
  | list items =>
      simp only [shape] at gathered
      cases gathered
      rw [slotValues, shape]
  | _ =>
      simp only [shape] at gathered
      cases held : blockOf blocks source with
      | error reason => rw [held] at gathered; cases gathered
      | ok block =>
          rw [held] at gathered
          cases gathered
          rw [slotValues, shape, textBytes_of_block held, select_map, selectBytes_eq]
          rfl

theorem intoText_overlaid (text : Payload Bytes) (exclusive : Bool) (bytes : Bytes) (position : Int) :
    Overlaid (fun _ byte => byte) text.content position.toNat bytes
      (intoText text exclusive bytes position).content := by
  have stands := overlay_overlaid (fun _ byte => byte) text.content position.toNat bytes
  unfold intoText
  by_cases past : text.content.length ≤ position.toNat
  · have nothing : overlay (fun _ byte => byte) text.content position.toNat bytes = text.content := by
      rw [overlay, List.drop_eq_nil_of_le past, List.take_of_length_le past,
        List.drop_eq_nil_of_le (by omega), List.zipWith_nil_left, List.append_nil, List.append_nil]
    rw [nothing] at stands
    rw [if_pos past]
    exact stands
  · rw [if_neg past]
    dsimp only
    rw [Bytes.overwrite_take _ (by omega)]
    exact stands

def protectAs (slot value : Value) : Value :=
  value.protect slot.protection

theorem protectAs_bits (slot value : Value) {place : Nat} (inside : place < 8) :
    (protectAs slot value).protection.bits.toBitVec[place]
      = (value.protection.bits.toBitVec[place] || slot.protection.bits.toBitVec[place]) := by
  simp only [protectAs, Value.protect, Protection.union, UInt8.toBitVec_or, BitVec.getElem_or]

/-- No slot loses a bit of its protection. -/
theorem overlaid_keeps_bits {slots values stored : List Value} {start : Nat}
    (overlaid : Overlaid protectAs slots start values stored) {index : Nat} {slot : Value}
    (held : slots[index]? = some slot) :
    ∃ kept, stored[index]? = some kept
      ∧ ∀ bit, slot.protection.contains bit = true → kept.protection.contains bit = true := by
  obtain ⟨bound, same⟩ := List.getElem?_eq_some_iff.mp held
  by_cases within : start ≤ index ∧ index < start + values.length
  · obtain ⟨past, rfl⟩ := Nat.exists_eq_add_of_le within.1
    refine ⟨_, overlaid.inside past bound (by omega), fun bit had => ?_⟩
    rw [same, protectAs, Value.protect, Protection.union_comm]
    exact Protection.contains_union _ had
  · refine ⟨slot, ?_, fun _ had => had⟩
    rw [overlaid.outside index (by omega), held]

theorem intoSlots_overlaid {slots values stored : List Value}
    (placed : intoSlots slots values position = .ok stored) :
    position.toNat + values.length ≤ slots.length
      ∧ Overlaid protectAs slots position.toNat values stored := by
  unfold intoSlots at placed
  by_cases large : slots.length < position.toNat + values.length
  · simp [large] at placed
  · rw [if_neg large] at placed
    cases placed
    exact ⟨Nat.not_lt.mp large, overlay_overlaid protectAs slots position.toNat values⟩

theorem with_own_data {value : Value} {data : Data Value} (held : value.data = data) :
    { value with data := data } = value := by
  cases value
  subst held
  rfl

theorem overlaid_nil {α : Type} (merge : α → α → α) (old : List α) (start : Nat) :
    Overlaid merge old start [] old where
  length := rfl
  inside := fun _ _ brought => absurd brought (Nat.not_lt_zero _)
  outside := fun _ _ => rfl

theorem copy_into_text {payload : Payload Bytes} (held : destination.data = .text payload)
    (copied : copy source start count destination position exclusive machine = (.ok after, last)) :
    last = machine ∧ ∃ written, after = { destination with data := .text written }
      ∧ Overlaid (fun _ byte => byte) payload.content position.toNat
        (select (textBytes machine.blocks source) start.toNat count) written.content
      ∧ (payload.content.length ≤ position.toNat → written = payload) := by
  have ran := (copy_answered (congrArg Prod.fst copied)).2
  rw [copied, route] at ran
  cases gathered : bytesForText machine.blocks source start.toNat count with
  | error reason =>
      simp only [Effect.get_bind_run, held, gathered] at ran
      cases ran
  | ok bytes =>
      simp only [Effect.get_bind_run, held, gathered, Effect.lift_ok_bind_run] at ran
      rw [← bytesForText_eq gathered]
      by_cases none : bytes = []
      · rw [if_pos (List.isEmpty_iff.mpr none)] at ran
        cases ran
        refine ⟨rfl, payload, (with_own_data held).symm, ?_, fun _ => rfl⟩
        rw [none]
        exact overlaid_nil _ _ _
      · rw [if_neg (mt List.isEmpty_iff.mp none)] at ran
        cases ran
        refine ⟨rfl, _, rfl, intoText_overlaid payload exclusive bytes position, ?_⟩
        exact fun past => if_pos past

/-- How values make a matrix of some bounds, or a list. -/
inductive Container : (List Value → Data Value) → Prop where
  | matrix (bounds : List Bounds) : Container (.matrix bounds)
  | list : Container .list

theorem route_into_slots {build : List Value → Data Value} (container : Container build)
    {slots : List Value} (held : destination.data = build slots) (start : Nat) (count position : Int)
    (exclusive : Bool) (machine : Machine) :
    route source start count destination position exclusive machine
      = match elements machine.blocks source start count with
        | .error reason => (.error reason, machine)
        | .ok values =>
            if values.isEmpty then (.ok destination, machine)
            else
              match intoSlots slots values position with
              | .error reason => (.error reason, machine)
              | .ok stored => (.ok { destination with data := build stored }, machine) := by
  unfold route
  rw [Effect.get_bind_run, held]
  cases container <;> dsimp only <;> cases elements machine.blocks source start count with
  | error reason => rfl
  | ok values =>
      rw [Effect.lift_ok_bind_run]
      dsimp only
      by_cases empty : values.isEmpty = true
      · rw [if_pos empty, if_pos empty]
        rfl
      · rw [if_neg empty, if_neg empty]
        cases intoSlots slots values position <;> rfl

/-- A copy into a matrix or list writes a window of its slots. -/
theorem copy_into_slots {build : List Value → Data Value} (container : Container build)
    {slots : List Value} (held : destination.data = build slots)
    (copied : copy source start count destination position exclusive machine = (.ok after, last)) :
    last = machine ∧ ∃ stored, after = { destination with data := build stored }
      ∧ Overlaid protectAs slots position.toNat
        (select (slotValues machine.blocks source) start.toNat count) stored
      ∧ (select (slotValues machine.blocks source) start.toNat count ≠ [] →
        position.toNat + (select (slotValues machine.blocks source) start.toNat count).length
          ≤ slots.length) := by
  have ran := (copy_answered (congrArg Prod.fst copied)).2
  rw [copied, route_into_slots container held] at ran
  cases gathered : elements machine.blocks source start.toNat count with
  | error reason =>
      rw [gathered] at ran
      cases ran
  | ok values =>
      rw [gathered] at ran
      dsimp only at ran
      rw [← elements_eq gathered]
      by_cases none : values = []
      · rw [if_pos (List.isEmpty_iff.mpr none)] at ran
        cases ran
        refine ⟨rfl, slots, (with_own_data held).symm, ?_, fun some => absurd none some⟩
        rw [none]
        exact overlaid_nil _ _ _
      · rw [if_neg (mt List.isEmpty_iff.mp none)] at ran
        cases placed : intoSlots slots values position with
        | error reason =>
            rw [placed] at ran
            cases ran
        | ok stored =>
            rw [placed] at ran
            cases ran
            obtain ⟨fits, stands⟩ := intoSlots_overlaid placed
            exact ⟨rfl, stored, rfl, stands, fun _ => fits⟩

theorem octetOf_byteValue (blocks : NamedBlocks) (slot : Value) (byte : UInt8) :
    octetOf blocks (protectAs slot (byteValue byte)) = byte := by
  have integer : (Number.ofInt byte.toNat).integerPart = byte.toNat := Int.tdiv_one _
  have octet : octetOf blocks (protectAs slot (byteValue byte))
      = (Number.ofInt byte.toNat).lowOctet := rfl
  rw [octet, Number.lowOctet, integer, Int.natAbs_natCast]
  exact UInt8.ofNat_toNat

/-- Bytes that lie in slots from the first to the last are read from there. -/
theorem octets_of_bytes (blocks : NamedBlocks) {slots stored : List Value} {bytes : Bytes}
    (whole : slots.length = bytes.length)
    (stands : Overlaid protectAs slots 0 (bytes.map byteValue) stored) :
    stored.map (octetOf blocks) = bytes := by
  apply List.ext_getElem?
  intro index
  rw [List.getElem?_map]
  by_cases inside : index < bytes.length
  · have there := stands.inside index (by omega) (by rwa [List.length_map])
    simp only [Nat.zero_add, List.getElem_map] at there
    rw [there, Option.map_some, octetOf_byteValue, List.getElem?_eq_getElem inside]
  · have length := stands.length
    rw [List.getElem?_eq_none (by omega), List.getElem?_eq_none (by omega)]
    rfl

/-- A block goes into a matrix of its length, where the slots read as its bytes. -/
theorem block_fills_matrix {block : Block} {matrix : Value} {bounds : List Bounds} {slots : List Value}
    (stands : blockOf machine.blocks source = .ok block) (shape : matrix.data = .matrix bounds slots)
    (sized : slots.length = block.length) (filled : Unprotected machine.blocks source matrix)
    {first : Int} (front : first ≤ 0) (exclusive : Bool) :
    ∃ stored, copy source 0 (-1) matrix first exclusive machine
        = (.ok { matrix with data := .matrix bounds stored }, machine)
      ∧ stored.map (octetOf machine.blocks) = block.data := by
  have start : first.toNat = 0 := Int.toNat_of_nonpos front
  have direct := blockOf_isBlock stands
  have values : slotValues machine.blocks source = block.data.map byteValue := by
    rw [← textBytes_of_block stands, slotValues]
    rcases blockOf_ok stands with direct | ⟨id, named, names, _, _⟩
    · rw [direct]
    · rw [names]
  obtain ⟨between, answered⟩ : Succeeds (copy source 0 (-1) matrix first exclusive machine) := by
    have kind : matrix.kind = .matrix := by
      rw [Value.kind, shape]
      rfl
    have routed : Routed source.kind matrix.kind ∧ matrix.kind ∈ reaches source.kind := by
      rw [kind, Routed]
      revert direct
      cases source.kind <;> decide
    obtain ⟨_, read, counted, _⟩ := blockOf_source filled direct
    cases stands.symm.trans read
    have bound := clamp_le block.length 0 (-1)
    rw [copy_run, permit_ok_iff.mpr ⟨filled, routed.1, Int.le_refl 0⟩]
    refine (route_succeeds_iff filled routed.2).mpr (.inr ?_)
    simp only [HasRoom, shape, counted, Int.toNat_zero]
    omega
  have ran := Effect.run_of_answer answered
  obtain ⟨same, stored, rfl, overlaid, _⟩ := copy_into_slots (.matrix bounds) shape ran
  rw [same] at ran
  rw [start, Int.toNat_zero, select_all, values] at overlaid
  exact ⟨stored, ran, octets_of_bytes machine.blocks (by rw [sized, block.data_length]) overlaid⟩

/-- A block that goes into a matrix of its length, and from there into an empty block, comes back. -/
theorem copy_through_matrix {block empty : Block} {matrix target : Value} {bounds : List Bounds}
    {slots : List Value} (stands : blockOf machine.blocks source = .ok block)
    (shape : matrix.data = .matrix bounds slots) (sized : slots.length = block.length)
    (held : blockOf machine.blocks target = .ok empty) (sound : empty.Sound)
    (nothing : empty.length = 0) (grows : mayGrow machine.blocks target = true)
    (filled : Unprotected machine.blocks source matrix)
    (emptied : Unprotected machine.blocks matrix target) {first second : Int} (front : first ≤ 0)
    (begins : second ≤ 0) (exclusive : Bool) :
    ∃ between new, copy source 0 (-1) matrix first exclusive machine = (.ok between, machine)
      ∧ copy between 0 (-1) target second exclusive machine
        = (.ok (replaced machine target new).1, (replaced machine target new).2)
      ∧ new.data = block.data := by
  obtain ⟨stored, ran, octets⟩ := block_fills_matrix stands shape sized filled front exclusive
  have role : SameRole { matrix with data := .matrix bounds stored } matrix := by
    constructor <;> simp [Value.kind, Data.kind, sourceBlock?, destinationBlock?, shape]
  have routed : Kind.block ∈ reaches (Value.kind { matrix with data := .matrix bounds stored }) :=
    List.mem_cons_self
  obtain ⟨bytes, new, gathered, copied, _, shown⟩ := copy_grows held sound grows
    (emptied.sameRole role (.refl target)) routed (Int.le_refl 0) (-1) second exclusive
  refine ⟨_, new, ran, copied, ?_⟩
  have brought : bytes = block.data := by
    rw [← octets, ← select_all stored]
    exact (Except.ok.inj gathered).symm
  have place : (if second < 0 then empty.length else second.toNat) = ([] : Bytes).length := by
    rw [List.length_nil]
    split <;> omega
  have blank : empty.data = [] := by
    rw [← List.length_eq_zero_iff, empty.data_length, nothing]
  have data := congrArg Block.View.data shown
  rwa [Block.View.stored_data, Block.view_data, Block.view_data, blank, place, Bytes.patch_end, brought]
    at data

end Copy

open Copy

/-- What a copy writes into a text, a matrix or a list is a window; and a block comes back from a matrix
of its length. -/
theorem copies_are_windows :
    (∀ {machine last : Machine} {source destination after : Value} {start count position : Int}
        {exclusive : Bool},
        copy source start count destination position exclusive machine = (.ok after, last) →
        (∀ payload, destination.data = .text payload →
          let bytes := select (textBytes machine.blocks source) start.toNat count
          last = machine ∧ ∃ written, after = { destination with data := .text written }
            ∧ Overlaid (fun _ byte => byte) payload.content position.toNat bytes written.content
            ∧ (payload.content.length ≤ position.toNat → written = payload))
        ∧ ∀ build slots, Container build → destination.data = build slots →
          let values : List Value := select (slotValues machine.blocks source) start.toNat count
          last = machine ∧ ∃ stored, after = { destination with data := build stored }
            ∧ Overlaid protectAs slots position.toNat values stored
            ∧ (values ≠ [] → position.toNat + values.length ≤ slots.length)
            ∧ ∀ (index : Nat) (slot : Value), slots[index]? = some slot →
              ∃ kept : Value, stored[index]? = some kept
                ∧ ∀ bit, slot.protection.contains bit = true → kept.protection.contains bit = true)
      ∧ ∀ {machine : Machine} {source matrix target : Value} {block empty : Block}
          {bounds : List Bounds} {slots : List Value} {first second : Int} {exclusive : Bool},
          blockOf machine.blocks source = .ok block → matrix.data = .matrix bounds slots →
          slots.length = block.length → blockOf machine.blocks target = .ok empty → empty.Sound →
          empty.length = 0 → mayGrow machine.blocks target = true →
          Unprotected machine.blocks source matrix → Unprotected machine.blocks matrix target →
          first ≤ 0 → second ≤ 0 →
          ∃ between new, copy source 0 (-1) matrix first exclusive machine = (.ok between, machine)
            ∧ copy between 0 (-1) target second exclusive machine
              = (.ok (replaced machine target new).1, (replaced machine target new).2)
            ∧ new.data = block.data := by
  constructor
  · intro machine last source destination after start count position exclusive copied
    constructor
    · intro payload held
      exact copy_into_text held copied
    · intro build slots container held values
      obtain ⟨same, stored, result, overlaid, fits⟩ := copy_into_slots container held copied
      exact ⟨same, stored, result, overlaid, fits, fun _ _ there => overlaid_keeps_bits overlaid there⟩
  · intro machine source matrix target block empty bounds slots first second exclusive stands shape sized
      held sound nothing grows filled emptied front begins
    exact copy_through_matrix stands shape sized held sound nothing grows filled emptied front begins
      exclusive

namespace WindowSample

def block : Value := .ofNamedBlock ⟨0⟩

def text : Value := .ofText [9, 9, 9, 9]

def matrix : Value :=
  .plain (.matrix [(1, 3)] [.ofInt 7, .ofInt 8, (Value.ofInt 9).protect Protection.noCopyFrom])

def target : Value := .ofBlock (Block.allocate 0 4)

/-- The end of a text takes one byte of three; a slot takes the first and stays protected; and all three
come back from a matrix. -/
theorem three_bytes_are_seen :
    (∃ after last written, copy block 0 5 text 3 false oneBlock = (.ok after, last)
        ∧ after = { text with data := .text written } ∧ written.content.length = 4
        ∧ written.content[2]? = some 9 ∧ written.content[3]? = some 1)
      ∧ (∃ after last stored kept, copy block 0 1 matrix 2 false oneBlock = (.ok after, last)
        ∧ after = { matrix with data := .matrix [(1, 3)] stored } ∧ stored[2]? = some kept
        ∧ kept.protection.contains Protection.noCopyFrom = true)
      ∧ ∃ between new, copy block 0 (-1) matrix 0 false oneBlock = (.ok between, oneBlock)
        ∧ copy between 0 (-1) target (-1) false oneBlock
          = (.ok (replaced oneBlock target new).1, (replaced oneBlock target new).2)
        ∧ new.data = [1, 2, 3] := by
  obtain ⟨windows, through⟩ := copies_are_windows
  refine ⟨?_, ?_, ?_⟩
  · have copied : copy block 0 5 text 3 false oneBlock
        = (.ok { text with data := .text ⟨[9, 9, 9, 1], none⟩ }, oneBlock) := rfl
    obtain ⟨_, written, result, overlaid, _⟩ := (windows copied).1 _ rfl
    exact ⟨_, _, written, copied, result, overlaid.length, overlaid.outside 2 (.inl (by decide)),
      overlaid.inside 0 (by decide) (by decide)⟩
  · obtain ⟨after, answered⟩ : Succeeds (copy block 0 1 matrix 2 false oneBlock) := ⟨_, rfl⟩
    have copied := Effect.run_of_answer answered
    obtain ⟨_, stored, result, _, _, keeps⟩ := (windows copied).2 _ _ (.matrix _) rfl
    obtain ⟨kept, there, bits⟩ := keeps 2 _ rfl
    exact ⟨_, _, stored, kept, copied, result, there, bits _ (by decide)⟩
  · have filled : Unprotected oneBlock.blocks block matrix := by
      refine ⟨by decide, by decide, ?_, nofun⟩
      rintro _ ⟨⟩
      exact ⟨_, rfl, rfl, rfl⟩
    have emptied : Unprotected oneBlock.blocks matrix target :=
      ⟨by decide, by decide, nofun, nofun⟩
    have front : (0 : Int) ≤ 0 := Int.le_refl 0
    have begins : (-1 : Int) ≤ 0 := by decide
    exact through rfl rfl rfl rfl (Block.allocate_sound 0 4) rfl rfl filled emptied front begins

end WindowSample

end Calculator
