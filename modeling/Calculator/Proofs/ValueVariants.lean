import Calculator.Proofs.EqualValues

/-!
# What equality does not see

Two values are variants of each other when they differ in nothing but protection bits, the capacity
and chunk of blocks, and the order of associations, wherever these stand in them. Variants are equal.
The order of an association changes when insertions of different keys change places; insertions of
equal keys have to keep their turns, as the last one of them tells the value.
-/

namespace Calculator

namespace Value

/-- The values differ in nothing that equality sees. -/
inductive Variant : Value → Value → Prop
  | protection (data : Data Value) (left right : Protection) : Variant ⟨data, left⟩ ⟨data, right⟩
  | simple {left right : Data Value} (leftBits rightBits : Protection)
      (seen : left.sight?.isSome = true) (alike : left.sight? = right.sight?) :
      Variant ⟨left, leftBits⟩ ⟨right, rightBits⟩
  | matrix (bounds : List Bounds) {left right : List Value} (leftBits rightBits : Protection)
      (length : left.length = right.length)
      (slots : ∀ pair ∈ left.zip right, Variant pair.1 pair.2) :
      Variant ⟨.matrix bounds left, leftBits⟩ ⟨.matrix bounds right, rightBits⟩
  | list {left right : List Value} (leftBits rightBits : Protection)
      (length : left.length = right.length)
      (items : ∀ pair ∈ left.zip right, Variant pair.1 pair.2) :
      Variant ⟨.list left, leftBits⟩ ⟨.list right, rightBits⟩
  | association {left changed right : Association} (leftBits rightBits : Protection)
      (length : left.length = changed.length)
      (sizes : ∀ pair ∈ left.zip changed, pair.1.1.length = pair.2.1.length)
      (keys : ∀ pair ∈ left.zip changed, ∀ part ∈ pair.1.1.zip pair.2.1, Variant part.1 part.2)
      (values : ∀ pair ∈ left.zip changed, Variant pair.1.2 pair.2.2)
      (moved : changed.Perm right) :
      Variant ⟨.association left, leftBits⟩ ⟨.association right, rightBits⟩

end Value

namespace Association

open Value

variable {entries left right : Association}

theorem sameList_false_symm {one other : List Value} (first : FormedKey one) (second : FormedKey other)
    (different : sameList one other = false) : sameList other one = false := by
  rw [Bool.eq_false_iff] at different ⊢
  intro equal
  exact different ((coherent_key second).symm second first equal)

theorem sameList_of_both {one other key : List Value} (first : FormedKey one)
    (second : FormedKey other) (formed : FormedKey key) (oneSame : sameList one key = true)
    (otherSame : sameList other key = true) : sameList one other = true := by
  have back := (coherent_key second).symm second formed otherSame
  exact (coherent_key first).trans formed second oneSame back

theorem Keyed.apart (keyed : left.Keyed) :
    left.Pairwise fun one other =>
      sameList one.1 other.1 = false ∧ sameList other.1 one.1 = false := by
  apply (List.pairwise_map.mp keyed.distinct).imp_of_mem
  intro one other first second different
  have back := sameList_false_symm (keyed.formed one first) (keyed.formed other second) different
  exact ⟨different, back⟩

theorem Keyed.perm (keyed : left.Keyed) (moved : left.Perm right) : right.Keyed := by
  have apart := (moved.pairwise_iff fun both => ⟨both.2, both.1⟩).mp keyed.apart
  constructor
  · exact List.pairwise_map.mpr (apart.imp And.left)
  · intro entry present
    exact keyed.formed entry (moved.mem_iff.mpr present)

theorem Keyed.distinct_changed (keyed : left.Keyed) (length : left.length = right.length)
    (keys : ∀ pair ∈ left.zip right, sameList pair.1.1 pair.2.1 = true ∧ FormedKey pair.2.1) :
    right.Distinct := by
  obtain ⟨distinct, formed⟩ := keyed
  have paired : List.Forall₂ (fun one other : List Value × Value =>
      sameList one.1 other.1 = true ∧ FormedKey other.1) left right :=
    List.forall₂_iff_zip.mpr ⟨length, fun member => keys _ member⟩
  clear length keys
  induction paired with
  | nil => exact List.Pairwise.nil
  | @cons first entry others rest head tail ih =>
      rw [Distinct, List.map_cons, List.pairwise_cons] at distinct ⊢
      obtain ⟨apart, remaining⟩ := distinct
      obtain ⟨sameHead, headFormed⟩ := head
      constructor
      · intro key present
        obtain ⟨later, member, rfl⟩ := List.mem_map.mp present
        obtain ⟨sizes, pairs⟩ := List.forall₂_iff_zip.mp tail
        obtain ⟨old, oldMember, both⟩ := paired_with_left sizes member
        obtain ⟨sameLater, laterFormed⟩ := pairs both
        have firstFormed := formed first List.mem_cons_self
        have oldFormed := formed old (List.mem_cons_of_mem first oldMember)
        rw [Bool.eq_false_iff]
        intro equal
        -- The keys before the change would be equal too.
        have across : sameList first.1 later.1 = true :=
          (coherent_key firstFormed).trans headFormed laterFormed sameHead equal
        have met := sameList_of_both firstFormed oldFormed laterFormed across sameLater
        rw [apart old.1 (List.mem_map_of_mem oldMember)] at met
        cases met
      · exact ih remaining fun old member => formed old (List.mem_cons_of_mem first member)

theorem Keyed.changed (keyed : left.Keyed) (length : left.length = right.length)
    (keys : ∀ pair ∈ left.zip right, sameList pair.1.1 pair.2.1 = true ∧ FormedKey pair.2.1) :
    right.Keyed := by
  constructor
  · exact keyed.distinct_changed length keys
  · intro entry present
    obtain ⟨old, _, both⟩ := paired_with_left length present
    exact (keys (old, entry) both).2

end Association

namespace Value

theorem sameList_of_zip {left right : List Value} (length : left.length = right.length)
    (each : ∀ pair ∈ left.zip right, pair.1.same pair.2 = true ∧ pair.2.Formed) :
    sameList left right = true ∧ FormedKey right := by
  constructor
  · rw [sameList_iff, List.forall₂_iff_zip]
    exact ⟨length, fun member => (each _ member).1⟩
  · intro part present
    obtain ⟨one, _, both⟩ := paired_with_left length present
    exact (each (one, part) both).2

theorem Variant.same_of_formed {left right : Value} (variant : left.Variant right)
    (formed : left.Formed) : left.same right = true ∧ right.Formed := by
  induction variant with
  | protection data _ rightBits =>
      refine ⟨?_, formed.protect rightBits⟩
      have itself := formed.coherent.itself
      exact itself
  | simple _ rightBits seen alike =>
      refine ⟨?_, .simple rightBits (alike ▸ seen)⟩
      rw [same, sameData_iff_sight seen]
      exact alike
  | matrix bounds _ rightBits length _ ih =>
      have slotsFormed := formed_of_slots formed
      obtain ⟨equal, others⟩ := sameList_of_zip length fun pair member =>
        ih pair member (slotsFormed pair.1 (List.of_mem_zip member).1)
      refine ⟨?_, .matrix bounds rightBits others⟩
      simp [same, sameData, equal]
  | list _ rightBits length _ ih =>
      have itemsFormed := formed_of_items formed
      obtain ⟨equal, others⟩ := sameList_of_zip length fun pair member =>
        ih pair member (itemsFormed pair.1 (List.of_mem_zip member).1)
      exact ⟨equal, .list rightBits others⟩
  | @association left changed right _ rightBits length sizes _ _ moved keys values =>
      obtain ⟨keyed, valuesFormed⟩ := formed_of_entries formed
      have changedKeys : ∀ pair ∈ left.zip changed,
          sameList pair.1.1 pair.2.1 = true ∧ FormedKey pair.2.1 := by
        intro pair member
        apply sameList_of_zip (sizes pair member)
        intro part within
        exact keys pair member part within
          (keyed.formed pair.1 (List.of_mem_zip member).1 part.1 (List.of_mem_zip within).1)
      have changedValues : ∀ pair ∈ left.zip changed,
          pair.1.2.same pair.2.2 = true ∧ pair.2.2.Formed := by
        intro pair member
        exact values pair member (valuesFormed pair.1 (List.of_mem_zip member).1)
      have rightKeyed := (keyed.changed length changedKeys).perm moved
      constructor
      · rw [same, sameData_association_iff
          (fun entry member => coherent_key (keyed.formed entry member)) rightKeyed]
        refine ⟨by rw [length, moved.length_eq], ?_⟩
        intro entry member
        obtain ⟨other, present, both⟩ := paired_with_right length member
        exact ⟨other, moved.mem_iff.mp present, (changedKeys _ both).1, (changedValues _ both).1⟩
      · apply formed_association rightBits rightKeyed
        intro entry present
        obtain ⟨old, _, both⟩ := paired_with_left length (moved.mem_iff.mpr present)
        exact (changedValues (old, entry) both).2

end Value

namespace Association

open Value

/-- Insertions in another order, in which those under equal keys keep their turns. -/
inductive Reordered : List (List Value × Value) → List (List Value × Value) → Prop
  | nil : Reordered [] []
  | cons (entry : List Value × Value) {rest others : List (List Value × Value)}
      (reordered : Reordered rest others) : Reordered (entry :: rest) (entry :: others)
  | swap (first second : List Value × Value) (rest : List (List Value × Value))
      (different : sameList first.1 second.1 = false) :
      Reordered (first :: second :: rest) (second :: first :: rest)
  | trans {first second third : List (List Value × Value)} (one : Reordered first second)
      (two : Reordered second third) : Reordered first third

theorem Reordered.perm {inserted moved : List (List Value × Value)}
    (reordered : Reordered inserted moved) : inserted.Perm moved := by
  induction reordered with
  | nil => exact .nil
  | cons entry _ ih => exact ih.cons entry
  | swap first second rest _ => exact .swap second first rest
  | trans _ _ one two => exact one.trans two

variable {left right : Association}

theorem Keyed.insert {entries : Association} (keyed : entries.Keyed) {key : List Value}
    (formed : FormedKey key) (value : Value) : (entries.insert key value).Keyed := by
  constructor
  · exact keyed.distinct.insert key value
  · intro entry present
    rcases (mem_insert present).1 with own | ⟨old, member, same⟩
    · exact own ▸ formed
    · exact same ▸ keyed.formed old member

theorem Keyed.tail {entry : List Value × Value} {rest : Association}
    (keyed : Keyed (entry :: rest)) : rest.Keyed := by
  constructor
  · exact keyed.distinct.of_cons
  · exact fun other member => keyed.formed other (List.mem_cons_of_mem entry member)

theorem insert_perm (moved : left.Perm right) (keyed : left.Keyed) {key : List Value}
    (formed : FormedKey key) (value : Value) :
    (left.insert key value).Perm (right.insert key value) := by
  induction moved with
  | nil => exact .refl _
  | @cons entry rest others moved ih =>
      rw [insert_cons, insert_cons]
      split
      · exact moved.cons _
      · exact (ih keyed.tail).cons entry
  | swap first second rest =>
      have different : sameList second.1 first.1 = false :=
        (List.pairwise_cons.mp keyed.distinct).1 first.1 (by simp)
      have notBoth : ¬ (sameList second.1 key = true ∧ sameList first.1 key = true) := by
        rintro ⟨one, two⟩
        have equal := sameList_of_both (keyed.formed second (by simp)) (keyed.formed first (by simp))
          formed one two
        rw [different] at equal
        cases equal
      cases one : sameList second.1 key with
      | true =>
          cases two : sameList first.1 key with
          | true => exact absurd ⟨one, two⟩ notBoth
          | false =>
              rw [insert_found one, insert_passed two, insert_found one]
              exact .swap _ _ _
      | false =>
          cases two : sameList first.1 key with
          | true =>
              rw [insert_passed one, insert_found two, insert_found two]
              exact .swap _ _ _
          | false =>
              rw [insert_passed one, insert_passed two, insert_passed two, insert_passed one]
              exact .swap _ _ _
  | trans moved _ one two => exact (one keyed).trans (two (keyed.perm moved))

/-- Insertions of different keys can change places. -/
theorem insert_swap {entries : Association} (keyed : entries.Keyed) {first second : List Value × Value}
    (firstFormed : FormedKey first.1) (secondFormed : FormedKey second.1)
    (different : sameList first.1 second.1 = false) :
    ((entries.insert first.1 first.2).insert second.1 second.2).Perm
      ((entries.insert second.1 second.2).insert first.1 first.2) := by
  have back := sameList_false_symm firstFormed secondFormed different
  induction entries with
  | nil =>
      rw [insert_nil, insert_nil, insert_passed different, insert_passed back]
      exact .swap _ _ _
  | cons entry rest ih =>
      have formed := keyed.formed entry List.mem_cons_self
      have notBoth : ¬ (sameList entry.1 first.1 = true ∧ sameList entry.1 second.1 = true) := by
        rintro ⟨one, two⟩
        rw [(coherent_key formed).alike first.1 second.1 firstFormed secondFormed one, different] at two
        cases two
      cases one : sameList entry.1 first.1 with
      | true =>
          cases two : sameList entry.1 second.1 with
          | true => exact absurd ⟨one, two⟩ notBoth
          | false => simp [insert_cons, one, two]
      | false =>
          cases two : sameList entry.1 second.1 with
          | true => simp [insert_cons, one, two]
          | false =>
              rw [insert_passed one, insert_passed two, insert_passed two, insert_passed one]
              exact (ih keyed.tail).cons entry

def insertAll (built : Association) (inserted : List (List Value × Value)) : Association :=
  inserted.foldl (fun built entry => insert built entry.1 entry.2) built

theorem insertAll_cons (built : Association) (entry : List Value × Value)
    (rest : List (List Value × Value)) :
    insertAll built (entry :: rest) = insertAll (insert built entry.1 entry.2) rest :=
  rfl

theorem insertAll_perm (same : left.Perm right) (keyed : left.Keyed)
    {inserted : List (List Value × Value)} (formed : ∀ entry ∈ inserted, FormedKey entry.1) :
    (left.insertAll inserted).Perm (right.insertAll inserted) := by
  induction inserted generalizing left right with
  | nil => exact same
  | cons entry rest ih =>
      have own := formed entry List.mem_cons_self
      exact ih (insert_perm same keyed own entry.2) (keyed.insert own entry.2)
        fun other member => formed other (List.mem_cons_of_mem entry member)

theorem Reordered.insertAll_perm {inserted moved : List (List Value × Value)}
    (reordered : Reordered inserted moved) (formed : ∀ entry ∈ inserted, FormedKey entry.1)
    (keyed : left.Keyed) : (left.insertAll inserted).Perm (left.insertAll moved) := by
  induction reordered generalizing left with
  | nil => exact .refl left
  | cons entry _ ih =>
      have own := formed entry List.mem_cons_self
      exact ih (fun other member => formed other (List.mem_cons_of_mem entry member))
        (keyed.insert own entry.2)
  | swap first second rest different =>
      have firstFormed := formed first (by simp)
      have secondFormed := formed second (by simp)
      rw [insertAll_cons, insertAll_cons, insertAll_cons, insertAll_cons]
      apply Association.insertAll_perm (insert_swap keyed firstFormed secondFormed different)
      · exact (keyed.insert firstFormed first.2).insert secondFormed second.2
      · exact fun entry member => formed entry (by simp [member])
  | trans one _ first second =>
      apply (first formed keyed).trans
      apply second _ keyed
      exact fun entry member => formed entry (one.perm.mem_iff.mpr member)

theorem Reordered.ofEntries_perm {inserted moved : List (List Value × Value)}
    (reordered : Reordered inserted moved) (formed : ∀ entry ∈ inserted, FormedKey entry.1) :
    (ofEntries inserted).Perm (ofEntries moved) := by
  apply reordered.insertAll_perm formed
  constructor
  · exact List.Pairwise.nil
  · exact fun entry member => absurd member List.not_mem_nil

end Association

namespace Value

theorem Variant.refl : (value : Value) → value.Variant value
  | ⟨data, bits⟩ => .protection data bits bits

theorem Variant.of_perm {left right : Association} (moved : left.Perm right)
    (leftBits rightBits : Protection) :
    Variant ⟨.association left, leftBits⟩ ⟨.association right, rightBits⟩ := by
  apply Variant.association leftBits rightBits rfl _ _ _ moved
  · intro pair member
    rw [eq_of_mem_zip_self member]
  · intro pair member part within
    rw [eq_of_mem_zip_self member] at within
    rw [eq_of_mem_zip_self within]
    exact .refl part.2
  · intro pair member
    rw [eq_of_mem_zip_self member]
    exact .refl pair.2.2

theorem zip_of_sameList {left right : List Value}
    (each : ∀ value ∈ left, ∀ other, other.Formed → value.same other = true → value.Variant other)
    (formed : FormedKey right) (equal : sameList left right = true) :
    left.length = right.length ∧ ∀ pair ∈ left.zip right, Variant pair.1 pair.2 := by
  rw [sameList_iff, List.forall₂_iff_zip] at equal
  obtain ⟨length, same⟩ := equal
  refine ⟨length, ?_⟩
  intro pair member
  have inside := List.of_mem_zip member
  exact each pair.1 inside.1 pair.2 (formed pair.2 inside.2) (same member)

theorem Formed.variant_of_same {left right : Value} (formed : left.Formed) (others : right.Formed)
    (equal : left.same right = true) : left.Variant right := by
  induction formed generalizing right with
  | @simple data protection seen =>
      obtain ⟨otherData, otherBits⟩ := right
      rw [same, sameData_iff_sight seen] at equal
      exact .simple protection otherBits seen equal
  | @matrix bounds slots protection _ ih =>
      obtain ⟨otherData, otherBits⟩ := right
      cases otherData with
      | matrix otherBounds otherSlots =>
          simp only [same, sameData, Bool.and_eq_true, beq_iff_eq] at equal
          obtain ⟨rfl, sameSlots⟩ := equal
          obtain ⟨length, pairs⟩ := zip_of_sameList (fun slot member other => ih slot member)
            (formed_of_slots others) sameSlots
          exact .matrix bounds protection otherBits length pairs
      | _ => simp [same, sameData] at equal
  | @list items protection _ ih =>
      obtain ⟨otherData, otherBits⟩ := right
      cases otherData with
      | list otherItems =>
          obtain ⟨length, pairs⟩ := zip_of_sameList (fun item member other => ih item member)
            (formed_of_items others) equal
          exact .list protection otherBits length pairs
      | _ => simp [same, sameData] at equal
  | @association inserted protection keysFormed valuesFormed keys values =>
      obtain ⟨otherData, otherBits⟩ := right
      cases otherData with
      | association entries =>
          have formed : Formed ⟨.association (Association.ofEntries inserted), protection⟩ :=
            .association protection keysFormed valuesFormed
          obtain ⟨leftKeyed, _⟩ := formed_of_entries formed
          obtain ⟨rightKeyed, rightValues⟩ := formed_of_entries others
          have coherent := fun entry member => coherent_key (leftKeyed.formed entry member)
          rw [same, sameData_association_iff coherent rightKeyed] at equal
          obtain ⟨changed, length, pairs, moved⟩ :=
            counterparts_perm coherent leftKeyed rightKeyed equal.1 equal.2
          -- What is paired was inserted on the left, and stands on the right.
          have keyParts : ∀ pair ∈ (Association.ofEntries inserted).zip changed,
              pair.1.1.length = pair.2.1.length
                ∧ ∀ part ∈ pair.1.1.zip pair.2.1, Variant part.1 part.2 := by
            intro pair member
            have inside := List.of_mem_zip member
            obtain ⟨one, present, own⟩ := (Association.mem_ofEntries inside.1).1
            apply zip_of_sameList _ (rightKeyed.formed pair.2 (moved.mem_iff.mp inside.2))
              (pairs pair member).1
            intro part within other otherFormed sameParts
            exact keys one present part (own ▸ within) otherFormed sameParts
          apply Variant.association protection otherBits length _ _ _ moved
          · exact fun pair member => (keyParts pair member).1
          · exact fun pair member => (keyParts pair member).2
          · intro pair member
            have inside := List.of_mem_zip member
            obtain ⟨one, present, own⟩ := (Association.mem_ofEntries inside.1).2
            rw [← own]
            apply values one present (rightValues pair.2 (moved.mem_iff.mp inside.2))
            rw [own]
            exact (pairs pair member).2
      | _ => simp [same, sameData] at equal

end Value

open Association Value

/-- Equality is an equivalence of formed values. It does not see protection bits, capacity and chunk
of blocks and the order of insertions into associations, at any depth, and sees all else. -/
theorem equality_of_formed_values :
    Equivalence (fun left right : {value : Value // value.Formed} => left.1.same right.1 = true)
      ∧ (∀ left right : Value, left.Formed → left.Variant right → right.Formed)
      ∧ (∀ left right : Value, left.Formed → right.Formed →
        (left.same right = true ↔ left.Variant right))
      ∧ (∀ left right : Block, left.data = right.data → ∀ bits otherBits : Protection,
        Variant ⟨.block left, bits⟩ ⟨.block right, otherBits⟩)
      ∧ ∀ inserted moved : List (List Value × Value), (∀ entry ∈ inserted, FormedKey entry.1) →
        Reordered inserted moved → ∀ bits otherBits : Protection,
          Variant ⟨.association (ofEntries inserted), bits⟩
            ⟨.association (ofEntries moved), otherBits⟩ := by
  refine ⟨⟨?_, ?_, ?_⟩, ?_, ?_, ?_, ?_⟩
  · rintro ⟨value, formed⟩
    exact formed.coherent.itself
  · rintro ⟨left, formed⟩ ⟨right, others⟩ equal
    exact formed.coherent.symm formed others equal
  · rintro ⟨left, formed⟩ ⟨middle, between⟩ ⟨right, others⟩ first second
    exact formed.coherent.trans between others first second
  · intro left right formed variant
    exact (variant.same_of_formed formed).2
  · intro left right formed others
    constructor
    · exact formed.variant_of_same others
    · exact fun variant => (variant.same_of_formed formed).1
  · intro left right shown bits otherBits
    apply Variant.simple bits otherBits rfl
    exact congrArg (fun bytes => some (Sight.block bytes)) shown
  · intro inserted moved formed reordered bits otherBits
    exact .of_perm (reordered.ofEntries_perm formed) bits otherBits

namespace VariantSample

def small : Block := Block.ofBytes [0x61, 0x62] 4
def large : Block := Block.ofBytes [0x61, 0x62] 64

def named : List Value × Value := ([.plain (.list [.ofInt 1]), .ofText [0x61]], .ofBlock small)

def unnamed : List Value × Value := ([.null], .ofInt 2)

def left : Value :=
  .plain (.list [.plain (.association (ofEntries [named, unnamed])), .ofBlock small])

def right : Value :=
  .plain (.list [⟨.association (ofEntries [unnamed, named]), .noCopyTo⟩, ⟨.block large, .noAssignTo⟩])

theorem formed_entries :
    ∀ entry ∈ [named, unnamed], FormedKey entry.1 ∧ entry.2.Formed := by
  have one : (Value.ofInt 1).Formed := .simple .none rfl
  have listed : (Value.plain (.list [.ofInt 1])).Formed := by
    apply Formed.list .none
    simpa using one
  have text : (Value.ofText [0x61]).Formed := .simple .none rfl
  simp only [List.forall_mem_cons, List.not_mem_nil, false_implies, implies_true, and_true]
  constructor
  · exact ⟨by simpa [named, FormedKey] using ⟨listed, text⟩, .simple .none rfl⟩
  · have empty : Value.null.Formed := .simple .none rfl
    exact ⟨by simpa [unnamed, FormedKey] using empty, .simple .none rfl⟩

/-- Bits, the capacity of a block and the order of an association are different inside a list. -/
theorem varied_list_is_equal :
    small.capacity ≠ large.capacity ∧ left.Formed ∧ right.Formed ∧ left.Variant right
      ∧ left.same right = true ∧ right.same left = true := by
  obtain ⟨equivalence, kept, equal, blocks, orders⟩ := equality_of_formed_values
  have formed : left.Formed := by
    have entries : (Value.plain (.association (ofEntries [named, unnamed]))).Formed :=
      .association .none (fun entry member => (formed_entries entry member).1)
        fun entry member => (formed_entries entry member).2
    apply Formed.list .none
    intro item member
    rcases List.mem_cons.mp member with rfl | last
    · exact entries
    · rw [List.mem_singleton.mp last]
      exact .simple .none rfl
  have different : sameList named.1 unnamed.1 = false := by cbv
  have association := orders [named, unnamed] [unnamed, named]
    (fun entry member => (formed_entries entry member).1) (.swap named unnamed [] different)
    .none .noCopyTo
  have block := blocks small large (by cbv) .none .noAssignTo
  have variant : left.Variant right := by
    apply Variant.list
    · rfl
    intro pair member
    simp only [List.zip_cons_cons, List.zip_nil_right, List.mem_cons, List.not_mem_nil, or_false]
      at member
    rcases member with rfl | rfl
    · exact association
    · exact block
  have others := kept left right formed variant
  have same := (equal left right formed others).mpr variant
  have back : right.same left = true :=
    equivalence.symm (x := ⟨left, formed⟩) (y := ⟨right, others⟩) same
  exact ⟨by cbv, formed, others, variant, same, back⟩

end VariantSample

end Calculator
