import Calculator.Proofs.Insertions
import Mathlib.Data.List.Forall2
import Mathlib.Data.List.Perm.Subperm

/-!
# Equal values

Equality of values is followed through the values inside them. A value is coherent when it equals
itself and the values that equal it equal all else that it equals; from this come symmetry and
transitivity. An association is compared from its left side only, so its coherence takes more: as no
two keys of an association are equal, and equal associations are of one size, the entries of two equal
associations stand for each other one to one.
-/

namespace Calculator

section Zip

variable {α β : Type} {left : List α} {right : List β}

theorem paired_with_left (length : left.length = right.length) {other : β} (present : other ∈ right) :
    ∃ one ∈ left, (one, other) ∈ left.zip right := by
  rw [← List.map_snd_zip (Nat.le_of_eq length.symm)] at present
  obtain ⟨⟨one, _⟩, member, rfl⟩ := List.mem_map.mp present
  exact ⟨one, (List.of_mem_zip member).1, member⟩

theorem paired_with_right (length : left.length = right.length) {one : α} (present : one ∈ left) :
    ∃ other ∈ right, (one, other) ∈ left.zip right := by
  rw [← List.map_fst_zip (Nat.le_of_eq length)] at present
  obtain ⟨⟨_, other⟩, member, rfl⟩ := List.mem_map.mp present
  exact ⟨other, (List.of_mem_zip member).2, member⟩

theorem eq_of_mem_zip_self {pair : α × α} (member : pair ∈ left.zip left) : pair.1 = pair.2 := by
  induction left with
  | nil => simp at member
  | cons one rest ih =>
      rcases List.mem_cons.mp member with rfl | later
      · rfl
      · exact ih later

end Zip

/-- `one` equals itself, and what equals it equals what it equals. -/
structure Coherent {α : Type} (among : α → Prop) (same : α → α → Bool) (one : α) : Prop where
  itself : same one one = true
  alike : ∀ other third, among other → among third → same one other = true →
    same one third = same other third

namespace Coherent

variable {α : Type} {among : α → Prop} {same : α → α → Bool} {one other third : α}

theorem symm (coherent : Coherent among same one) (own : among one) (others : among other)
    (equal : same one other = true) : same other one = true := by
  rw [← coherent.alike other one others own equal]
  exact coherent.itself

theorem trans (coherent : Coherent among same one) (others : among other) (thirds : among third)
    (first : same one other = true) (second : same other third = true) : same one third = true := by
  rw [coherent.alike other third others thirds first]
  exact second

theorem transfer (coherent : Coherent among same one) (others : among other)
    (equal : same one other = true) : Coherent among same other := by
  constructor
  · rw [← coherent.alike other other others others equal]
    exact equal
  · intro third fourth thirds fourths reached
    have follows : same one third = true := coherent.trans others thirds equal reached
    rw [← coherent.alike other fourth others fourths equal]
    exact coherent.alike third fourth thirds fourths follows

/-- Elements that are not equal have different counterparts. -/
theorem nodup_counterparts {β γ : Type} {items : List β} (view : β → α) {counterpart : β → γ}
    (seen : γ → α) (apart : (items.map view).Pairwise fun one other => same one other = false)
    (coherent : ∀ item ∈ items, Coherent among same (view item))
    (own : ∀ item ∈ items, among (view item))
    (others : ∀ item ∈ items, among (seen (counterpart item)))
    (equal : ∀ item ∈ items, same (view item) (seen (counterpart item)) = true) :
    (items.map counterpart).Nodup := by
  rw [List.Nodup, List.pairwise_map]
  apply (List.pairwise_map.mp apart).imp_of_mem
  intro one other first second unequal shared
  have met : same (view one) (view other) = true := by
    apply (coherent one first).trans (others one first) (own other second) (equal one first)
    rw [shared]
    exact (coherent other second).symm (own other second) (others other second) (equal other second)
  rw [unequal] at met
  cases met

end Coherent

/-- What equality sees of data in which there are no values: contents without their marks, and of a
block its bytes. -/
inductive Sight where
  | null
  | number (number : Number)
  | complex (re im : Number)
  | text (bytes : Bytes)
  | block (bytes : Bytes)
  | namedBlock (id : BlockId)
  | textOctet (bytes : Bytes) (index : Nat)
  | blockOctet (id : BlockId) (index : Nat)
  | file (id : FileId)
  | error (code : ErrorCode)

/-- There is no such sight of matrices, lists and associations. -/
def Data.sight? {α : Type} : Data α → Option Sight
  | .null => some .null
  | .number payload => some (.number payload.content)
  | .complex re im => some (.complex re.content im.content)
  | .text payload => some (.text payload.content)
  | .block shown => some (.block shown.data)
  | .namedBlock id => some (.namedBlock id)
  | .octet (.text payload) index => some (.textOctet payload.content index)
  | .octet (.namedBlock id) index => some (.blockOctet id index)
  | .file id => some (.file id)
  | .error code => some (.error code)
  | .matrix _ _ => none
  | .list _ => none
  | .association _ => none

namespace Value

/-- Values as programs form them: from data in which there are no values, by putting values into
matrices and lists, and by inserting them into associations. -/
inductive Formed : Value → Prop
  | simple {data : Data Value} (protection : Protection) (seen : data.sight?.isSome = true) :
      Formed ⟨data, protection⟩
  | matrix (bounds : List Bounds) {slots : List Value} (protection : Protection)
      (formed : ∀ slot ∈ slots, Formed slot) : Formed ⟨.matrix bounds slots, protection⟩
  | list {items : List Value} (protection : Protection) (formed : ∀ item ∈ items, Formed item) :
      Formed ⟨.list items, protection⟩
  | association {inserted : List (List Value × Value)} (protection : Protection)
      (keys : ∀ entry ∈ inserted, ∀ part ∈ entry.1, Formed part)
      (values : ∀ entry ∈ inserted, Formed entry.2) :
      Formed ⟨.association (Association.ofEntries inserted), protection⟩

def FormedKey (key : List Value) : Prop :=
  ∀ part ∈ key, part.Formed

end Value

/-- Keys as insertions leave them. -/
structure Association.Keyed (entries : Association) : Prop where
  distinct : entries.Distinct
  formed : ∀ entry ∈ entries, Value.FormedKey entry.1

namespace Value

theorem sameList_iff (left right : List Value) :
    sameList left right = true ↔ List.Forall₂ (fun one other => one.same other = true) left right := by
  induction left generalizing right with
  | nil => cases right <;> simp [sameList]
  | cons value rest ih => cases right <;> simp [sameList, ih]

theorem sameEntries_iff (left right : List (List Value × Value)) :
    sameEntries left right = true ↔ ∀ entry ∈ left, sameEntry entry right = true := by
  induction left with
  | nil => simp [sameEntries]
  | cons entry rest ih => simp [sameEntries, ih]

theorem coherent_list {values : List Value}
    (each : ∀ value ∈ values, Coherent Formed same value) : Coherent FormedKey sameList values := by
  constructor
  · rw [sameList_iff, List.forall₂_same]
    exact fun value member => (each value member).itself
  · intro others thirds formed formedToo
    induction values generalizing others thirds with
    | nil =>
        intro equal
        cases others with
        | nil => rfl
        | cons other rest => simp [sameList] at equal
    | cons value rest ih =>
        intro equal
        cases others with
        | nil => simp [sameList] at equal
        | cons other otherRest =>
            cases thirds with
            | nil => simp [sameList]
            | cons third thirdRest =>
                simp only [sameList, Bool.and_eq_true] at equal ⊢
                have heads := (each value List.mem_cons_self).alike other third
                  (formed other List.mem_cons_self) (formedToo third List.mem_cons_self) equal.1
                have tails := ih (fun part member => each part (List.mem_cons_of_mem value member))
                  otherRest thirdRest
                  (fun part member => formed part (List.mem_cons_of_mem other member))
                  (fun part member => formedToo part (List.mem_cons_of_mem third member)) equal.2
                rw [heads, tails]

theorem sameData_iff_sight {left : Data Value} (seen : left.sight?.isSome = true)
    (right : Data Value) : sameData left right = true ↔ left.sight? = right.sight? := by
  rcases left with _ | _ | _ | _ | _ | _ | ⟨_ | _, _⟩ | _ | _ | _ | _ | _ <;>
    rcases right with _ | _ | _ | _ | _ | _ | ⟨_ | _, _⟩ | _ | _ | _ | _ | _ <;>
    simp_all [sameData, Data.sight?, OctetTarget.same, Block.same_iff]

section Formed

variable {protection other : Protection}

theorem formed_of_slots {bounds : List Bounds} {slots : List Value}
    (formed : Formed ⟨.matrix bounds slots, protection⟩) : FormedKey slots := by
  cases formed with
  | simple _ seen => simp [Data.sight?] at seen
  | matrix _ _ formed => exact formed

theorem formed_of_items {items : List Value} (formed : Formed ⟨.list items, protection⟩) :
    FormedKey items := by
  cases formed with
  | simple _ seen => simp [Data.sight?] at seen
  | list _ formed => exact formed

theorem formed_of_entries {entries : Association}
    (formed : Formed ⟨.association entries, protection⟩) :
    entries.Keyed ∧ ∀ entry ∈ entries, entry.2.Formed := by
  cases formed with
  | simple _ seen => simp [Data.sight?] at seen
  | @association inserted _ keys values =>
      refine ⟨⟨Association.distinct_ofEntries inserted, ?_⟩, ?_⟩
      · intro entry present
        obtain ⟨one, member, same⟩ := (Association.mem_ofEntries present).1
        rw [← same]
        exact keys one member
      · intro entry present
        obtain ⟨one, member, same⟩ := (Association.mem_ofEntries present).2
        rw [← same]
        exact values one member

theorem formed_association {entries : Association} (protection : Protection) (keyed : entries.Keyed)
    (values : ∀ entry ∈ entries, entry.2.Formed) : Formed ⟨.association entries, protection⟩ := by
  rw [← keyed.distinct.ofEntries]
  exact .association protection keyed.formed values

theorem Formed.protect {data : Data Value} (formed : Formed ⟨data, protection⟩)
    (other : Protection) : Formed ⟨data, other⟩ := by
  cases formed with
  | simple _ seen => exact .simple other seen
  | matrix bounds _ slots => exact .matrix bounds other slots
  | list _ items => exact .list other items
  | association _ keys values => exact .association other keys values

end Formed

def Pairs (left right : List Value × Value) : Prop :=
  sameList left.1 right.1 = true ∧ left.2.same right.2 = true

section Entries

variable {left right : Association}

/-- Of keys that are not equal, one at most equals a coherent key. -/
theorem eq_of_same_key {key : List Value} (coherent : Coherent FormedKey sameList key)
    (keyed : right.Keyed) {one other : List Value × Value} (first : one ∈ right)
    (second : other ∈ right) (oneSame : sameList key one.1 = true)
    (otherSame : sameList key other.1 = true) : one = other := by
  obtain ⟨distinct, formed⟩ := keyed
  induction right with
  | nil => cases first
  | cons entry rest ih =>
      rw [Association.Distinct, List.map_cons, List.pairwise_cons] at distinct
      have apart {later : List Value × Value} (member : later ∈ rest)
          (entrySame : sameList key entry.1 = true) : ¬ sameList key later.1 = true := by
        rw [coherent.alike entry.1 later.1 (formed entry List.mem_cons_self)
          (formed later (List.mem_cons_of_mem entry member)) entrySame,
          distinct.1 later.1 (List.mem_map_of_mem member)]
        exact Bool.false_ne_true
      rcases List.mem_cons.mp first with rfl | inRest
      · rcases List.mem_cons.mp second with rfl | later
        · rfl
        · exact absurd otherSame (apart later oneSame)
      · rcases List.mem_cons.mp second with rfl | later
        · exact absurd oneSame (apart inRest otherSame)
        · exact ih inRest later distinct.2 fun other member =>
            formed other (List.mem_cons_of_mem entry member)

theorem sameEntry_iff {entry : List Value × Value} (coherent : Coherent FormedKey sameList entry.1)
    (keyed : right.Keyed) : sameEntry entry right = true ↔ ∃ other ∈ right, Pairs entry other := by
  obtain ⟨key, value⟩ := entry
  rw [sameEntry]
  constructor
  · intro equal
    cases looked : List.find? (fun entry => sameList key entry.1) right with
    | none => simp [looked] at equal
    | some found =>
        rw [looked] at equal
        have same := List.find?_some looked
        exact ⟨found, List.mem_of_find?_eq_some looked, same, equal⟩
  · rintro ⟨other, present, same, equal⟩
    cases looked : List.find? (fun entry => sameList key entry.1) right with
    | none => exact absurd same (List.find?_eq_none.mp looked other present)
    | some found =>
        have foundSame := List.find?_some looked
        have own : found = other :=
          eq_of_same_key coherent keyed (List.mem_of_find?_eq_some looked) present foundSame same
        rw [own]
        exact equal

/-- Associations are equal when they are of one size and each entry has a counterpart. -/
theorem sameData_association_iff (coherent : ∀ entry ∈ left, Coherent FormedKey sameList entry.1)
    (keyed : right.Keyed) :
    sameData (.association left) (.association right) = true
      ↔ left.length = right.length ∧ ∀ entry ∈ left, ∃ other ∈ right, Pairs entry other := by
  rw [sameData, Bool.and_eq_true, beq_iff_eq, sameEntries_iff]
  constructor
  · rintro ⟨lengths, matched⟩
    refine ⟨lengths, ?_⟩
    intro entry member
    exact (sameEntry_iff (coherent entry member) keyed).mp (matched entry member)
  · rintro ⟨lengths, matched⟩
    refine ⟨lengths, ?_⟩
    intro entry member
    exact (sameEntry_iff (coherent entry member) keyed).mpr (matched entry member)

/-- Where each of as many entries has a counterpart, the counterparts are all there are: entries with
different keys have different counterparts. -/
theorem counterparts_perm (coherent : ∀ entry ∈ left, Coherent FormedKey sameList entry.1)
    (leftKeyed : left.Keyed) (rightKeyed : right.Keyed) (lengths : left.length = right.length)
    (matched : ∀ entry ∈ left, ∃ other ∈ right, Pairs entry other) :
    ∃ changed : Association, left.length = changed.length
      ∧ (∀ pair ∈ left.zip changed, Pairs pair.1 pair.2) ∧ changed.Perm right := by
  choose! counterpart within pairs using matched
  have different : (left.map counterpart).Nodup :=
    Coherent.nodup_counterparts Prod.fst Prod.fst leftKeyed.distinct coherent leftKeyed.formed
      (fun entry member => rightKeyed.formed _ (within entry member))
      fun entry member => (pairs entry member).1
  have inside : left.map counterpart ⊆ right := by
    intro other image
    obtain ⟨entry, member, rfl⟩ := List.mem_map.mp image
    exact within entry member
  refine ⟨left.map counterpart, by simp, ?_, ?_⟩
  · intro pair member
    rw [List.zip_map_right] at member
    obtain ⟨twin, both, rfl⟩ := List.mem_map.mp member
    rw [Prod.map_fst, Prod.map_snd, id_eq, eq_of_mem_zip_self both]
    exact pairs twin.2 (List.of_mem_zip both).2
  · apply (List.subperm_of_subset different inside).perm_of_length_le
    simp [lengths]

theorem counterparts_exhaust (coherent : ∀ entry ∈ left, Coherent FormedKey sameList entry.1)
    (leftKeyed : left.Keyed) (rightKeyed : right.Keyed) (lengths : left.length = right.length)
    (matched : ∀ entry ∈ left, ∃ other ∈ right, Pairs entry other) :
    ∀ other ∈ right, ∃ entry ∈ left, Pairs entry other := by
  obtain ⟨changed, length, pairs, moved⟩ :=
    counterparts_perm coherent leftKeyed rightKeyed lengths matched
  intro other present
  obtain ⟨entry, member, both⟩ := paired_with_left length (moved.mem_iff.mpr present)
  exact ⟨entry, member, pairs _ both⟩

end Entries

/-- What one association equals, each that equals it equals as well. -/
theorem coherent_association {entries : Association} {protection : Protection}
    (formed : Formed ⟨.association entries, protection⟩)
    (keys : ∀ entry ∈ entries, Coherent FormedKey sameList entry.1)
    (values : ∀ entry ∈ entries, Coherent Formed same entry.2) :
    Coherent Formed same ⟨.association entries, protection⟩ := by
  obtain ⟨keyed, _⟩ := formed_of_entries formed
  constructor
  · rw [same, sameData_association_iff keys keyed]
    refine ⟨rfl, ?_⟩
    intro entry member
    exact ⟨entry, member, (keys entry member).itself, (values entry member).itself⟩
  · rintro ⟨otherData, _⟩ ⟨thirdData, _⟩ otherFormed thirdFormed equal
    cases otherData with
    | association others =>
        obtain ⟨otherKeyed, otherValues⟩ := formed_of_entries otherFormed
        rw [same, sameData_association_iff keys otherKeyed] at equal
        obtain ⟨lengths, matched⟩ := equal
        have reached := counterparts_exhaust keys keyed otherKeyed lengths matched
        cases thirdData with
        | association thirds =>
            obtain ⟨thirdKeyed, thirdValues⟩ := formed_of_entries thirdFormed
            -- What stands for an entry is as coherent as the entry.
            have othersCoherent : ∀ other ∈ others, Coherent FormedKey sameList other.1 := by
              intro other present
              obtain ⟨entry, member, sameKey, _⟩ := reached other present
              exact (keys entry member).transfer (otherKeyed.formed other present) sameKey
            have agree {entry other third : List Value × Value} (member : entry ∈ entries)
                (present : other ∈ others) (shown : third ∈ thirds) (pairs : Pairs entry other) :
                Pairs entry third ↔ Pairs other third := by
              have sameKeys := (keys entry member).alike other.1 third.1
                (otherKeyed.formed other present) (thirdKeyed.formed third shown) pairs.1
              have sameValues := (values entry member).alike other.2 third.2
                (otherValues other present) (thirdValues third shown) pairs.2
              rw [Pairs, Pairs, sameKeys, sameValues]
            rw [same, same, Bool.eq_iff_iff, sameData_association_iff keys thirdKeyed,
              sameData_association_iff othersCoherent thirdKeyed, lengths]
            apply and_congr_right
            intro _
            constructor
            · intro paired other present
              obtain ⟨entry, member, pairs⟩ := reached other present
              obtain ⟨third, shown, both⟩ := paired entry member
              exact ⟨third, shown, (agree member present shown pairs).mp both⟩
            · intro paired entry member
              obtain ⟨other, present, pairs⟩ := matched entry member
              obtain ⟨third, shown, both⟩ := paired other present
              exact ⟨third, shown, (agree member present shown pairs).mpr both⟩
        | _ => simp [same, sameData]
    | _ => simp [same, sameData] at equal

theorem Formed.coherent {value : Value} (formed : value.Formed) : Coherent Formed same value := by
  induction formed with
  | @simple data protection seen =>
      constructor
      · rw [same, sameData_iff_sight seen]
      · rintro ⟨otherData, _⟩ ⟨thirdData, _⟩ _ _ equal
        rw [same, sameData_iff_sight seen] at equal
        have otherSeen : otherData.sight?.isSome = true := equal ▸ seen
        rw [same, same, Bool.eq_iff_iff, sameData_iff_sight seen, sameData_iff_sight otherSeen,
          equal]
  | @matrix bounds slots protection _ ih =>
      have coherent := coherent_list ih
      constructor
      · simp [same, sameData, coherent.itself]
      · rintro ⟨otherData, _⟩ ⟨thirdData, _⟩ otherFormed thirdFormed equal
        cases otherData with
        | matrix otherBounds others =>
            simp only [same, sameData, Bool.and_eq_true, beq_iff_eq] at equal
            obtain ⟨rfl, sameSlots⟩ := equal
            cases thirdData with
            | matrix thirdBounds thirds =>
                have alike := coherent.alike others thirds (formed_of_slots otherFormed)
                  (formed_of_slots thirdFormed) sameSlots
                simp [same, sameData, alike]
            | _ => simp [same, sameData]
        | _ => simp [same, sameData] at equal
  | @list items protection _ ih =>
      have coherent := coherent_list ih
      constructor
      · exact coherent.itself
      · rintro ⟨otherData, _⟩ ⟨thirdData, _⟩ otherFormed thirdFormed equal
        cases otherData with
        | list others =>
            cases thirdData with
            | list thirds =>
                exact coherent.alike others thirds (formed_of_items otherFormed)
                  (formed_of_items thirdFormed) equal
            | _ => simp [same, sameData]
        | _ => simp [same, sameData] at equal
  | @association inserted protection keysFormed valuesFormed keys values =>
      apply coherent_association (.association protection keysFormed valuesFormed)
      · intro entry present
        obtain ⟨one, member, own⟩ := (Association.mem_ofEntries present).1
        rw [← own]
        exact coherent_list (keys one member)
      · intro entry present
        obtain ⟨one, member, own⟩ := (Association.mem_ofEntries present).2
        rw [← own]
        exact values one member

theorem coherent_key {key : List Value} (formed : FormedKey key) : Coherent FormedKey sameList key :=
  coherent_list fun part member => (formed part member).coherent

end Value

end Calculator
