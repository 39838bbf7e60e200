import Calculator.Proofs.Payloads

/-!
# Payloads and their owners

A store holds payloads for a list of owners when it has each of them with its content and counts one link
for each owner. Taking hold of a payload adds an owner to the list and letting go removes one; what all
others own stays as it is. A text that is written has no other owner.
-/

namespace Calculator

theorem lookup_filter {κ β : Type} [DecidableEq κ] (gone other : κ) (entries : List (κ × β)) :
    (entries.filter fun entry => entry.1 != gone).lookup other
      = if other = gone then none else entries.lookup other := by
  induction entries with
  | nil => simp
  | cons entry rest ih =>
      rw [List.filter_cons]
      by_cases same : entry.1 = gone
      · subst same
        rw [if_neg (by simp), ih, List.lookup_cons]
        by_cases asked : other = entry.1
        · rw [if_pos asked, if_pos asked]
        · rw [if_neg asked, if_neg asked, beq_false_of_ne asked]
      · rw [if_pos (bne_iff_ne.mpr same), List.lookup_cons, List.lookup_cons]
        by_cases asked : other = entry.1
        · subst asked
          simp [same]
        · rw [beq_false_of_ne asked]
          exact ih

namespace Store

variable {α : Type} {store : Store α} {mark : Mark}

theorem cell?_modify (store : Store α) (mark : Mark) (change : Cell α → Cell α) (other : Mark) :
    (store.modify mark change).cell? other
      = if other = mark then (store.cell? other).map change else store.cell? other := by
  obtain ⟨cells⟩ := store
  dsimp only [modify, cell?]
  induction cells with
  | nil => simp
  | cons entry rest ih =>
      rw [List.map_cons, List.lookup_cons, List.lookup_cons]
      by_cases asked : other = entry.1
      · subst asked
        by_cases same : entry.1 = mark <;> simp [same]
      · rw [beq_false_of_ne asked]
        exact ih

theorem cell?_remove (store : Store α) (mark other : Mark) :
    (store.remove mark).cell? other = if other = mark then none else store.cell? other :=
  lookup_filter mark other store.cells

theorem cell?_cons (store : Store α) (mark : Mark) (cell : Cell α) (other : Mark) :
    (Store.mk ((mark, cell) :: store.cells)).cell? other
      = if other = mark then some cell else store.cell? other := by
  rw [cell?, List.lookup_cons]
  by_cases same : other = mark
  · rw [if_pos same, same, beq_self_eq_true]
  · rw [if_neg same, beq_false_of_ne same]
    rfl

def owners (payloads : List (Payload α)) (mark : Mark) : Nat :=
  payloads.countP fun payload => payload.mark == some mark

/-- The store has each of the payloads, and a link for each owner. -/
structure Holds (store : Store α) (payloads : List (Payload α)) : Prop where
  counted : ∀ mark, store.links mark = owners payloads mark
  live : ∀ mark cell, store.cell? mark = some cell → 0 < cell.links
  kept : ∀ payload ∈ payloads, ∀ mark, payload.mark = some mark →
    ∃ links, store.cell? mark = some { content := payload.content, links }

/-- What a store has under a mark is right for the owners: a cell with their content and one link for
each of them, or nothing where there are none. -/
def Accounted (entry : Option (Cell α)) (mark : Mark) (payloads : List (Payload α)) : Prop :=
  match entry with
  | some cell => cell.links = owners payloads mark ∧ 0 < cell.links
      ∧ ∀ payload ∈ payloads, payload.mark = some mark → payload.content = cell.content
  | none => owners payloads mark = 0

section Owners

variable {payloads : List (Payload α)} {payload : Payload α} {entry : Option (Cell α)}

theorem owners_cons_self (marked : payload.mark = some mark) (payloads : List (Payload α)) :
    owners (payload :: payloads) mark = owners payloads mark + 1 :=
  List.countP_cons_of_pos (beq_iff_eq.mpr marked)

theorem apart_of_marked (marked : payload.mark = some mark) {other : Mark} (apart : other ≠ mark) :
    payload.mark ≠ some other := by
  rw [marked]
  exact fun same => apart (Option.some.inj same).symm

theorem not_owned (none : owners payloads mark = 0) {other : Payload α} (member : other ∈ payloads) :
    other.mark ≠ some mark :=
  fun own => List.countP_eq_zero.mp none other member (beq_iff_eq.mpr own)

theorem exists_owner (owned : 0 < owners payloads mark) :
    ∃ other ∈ payloads, other.mark = some mark := by
  obtain ⟨other, member, own⟩ := List.countP_pos_iff.mp owned
  exact ⟨other, member, beq_iff_eq.mp own⟩

theorem accounted_cons_ne (apart : payload.mark ≠ some mark) :
    Accounted entry mark (payload :: payloads) ↔ Accounted entry mark payloads := by
  have same : owners (payload :: payloads) mark = owners payloads mark :=
    List.countP_cons_of_neg (mt beq_iff_eq.mp apart)
  unfold Accounted
  cases entry with
  | none => rw [same]
  | some cell =>
      dsimp only
      rw [same, List.forall_mem_cons]
      exact and_congr_right fun _ => and_congr_right fun _ =>
        ⟨fun all => all.2, fun all => ⟨fun own => absurd own apart, all⟩⟩

end Owners

/-- Whether a store holds payloads is seen at each mark on its own, so a store that is changed under one
mark is looked at there. -/
theorem holds_iff {payloads : List (Payload α)} :
    store.Holds payloads ↔ ∀ mark, Accounted (store.cell? mark) mark payloads := by
  constructor
  · intro holds mark
    have counted := holds.counted mark
    rw [links] at counted
    cases found : store.cell? mark with
    | none =>
        rw [found] at counted
        exact counted.symm
    | some cell =>
        rw [found] at counted
        refine ⟨counted, holds.live mark cell found, fun payload member own => ?_⟩
        obtain ⟨links, also⟩ := holds.kept payload member mark own
        rw [found] at also
        exact (congrArg Cell.content (Option.some.inj also)).symm
  · intro accounted
    refine ⟨fun mark => ?_, fun mark cell found => ?_, fun payload member mark own => ?_⟩
    · have right := accounted mark
      rw [links]
      cases found : store.cell? mark with
      | none =>
          rw [found] at right
          exact right.symm
      | some cell =>
          rw [found] at right
          exact right.1
    · have right := accounted mark
      rw [found] at right
      exact right.2.1
    · have right := accounted mark
      cases found : store.cell? mark with
      | none =>
          rw [found] at right
          exact absurd own (not_owned right member)
      | some cell =>
          rw [found] at right
          rw [right.2.2 payload member own]
          exact ⟨cell.links, rfl⟩

theorem cell?_link (store : Store α) (mark : Mark) (content : α) (other : Mark) :
    (store.link mark content).cell? other
      = if other = mark then
          some ((store.cell? mark).elim { content, links := 1 } fun cell =>
            { cell with links := cell.links + 1 })
        else store.cell? other := by
  rw [link]
  cases found : store.cell? mark with
  | none => exact cell?_cons store mark { content, links := 1 } other
  | some cell =>
      dsimp only
      rw [cell?_modify]
      by_cases own : other = mark
      · rw [if_pos own, if_pos own, own, found]
        rfl
      · rw [if_neg own, if_neg own]

theorem cell?_drop (store : Store α) (mark other : Mark) :
    (store.drop mark).cell? other
      = if other = mark then
          if store.links mark ≤ 1 then none
          else (store.cell? mark).map fun cell => { cell with links := cell.links - 1 }
        else store.cell? other := by
  rw [drop]
  by_cases last : store.links mark ≤ 1
  · rw [if_pos last, if_pos last, cell?_remove]
  · rw [if_neg last, if_neg last, cell?_modify]
    by_cases own : other = mark
    · rw [if_pos own, if_pos own, own]
    · rw [if_neg own, if_neg own]

namespace Holds

variable {payloads others : List (Payload α)} {payload : Payload α}

theorem empty : (Store.empty : Store α).Holds [] :=
  holds_iff.mpr fun _ => rfl

theorem perm (holds : store.Holds payloads) (same : payloads.Perm others) : store.Holds others where
  counted := fun mark => (holds.counted mark).trans (same.countP_eq _)
  live := holds.live
  kept := fun payload member => holds.kept payload (same.mem_iff.mpr member)

theorem read (holds : store.Holds payloads) (member : payload ∈ payloads)
    (marked : payload.mark.isSome) {handle : Payload α} (same : handle.mark = payload.mark) :
    store.read handle = payload := by
  obtain ⟨mark, owned⟩ := Option.isSome_iff_exists.mp marked
  obtain ⟨links, found⟩ := holds.kept payload member mark owned
  rw [Store.read, same, owned, Option.bind_some, found, ← owned]

theorem hold (holds : store.Holds payloads) (marked : payload.mark = some mark)
    (same : ∀ other ∈ payloads, other.mark = some mark → other.content = payload.content) :
    (store.hold payload).Holds (payload :: payloads) := by
  rw [Store.hold, marked, holds_iff]
  intro other
  dsimp only
  rw [cell?_link]
  have right := holds_iff.mp holds other
  by_cases own : other = mark
  · subst own
    rw [if_pos rfl]
    cases found : store.cell? other with
    | some cell =>
        rw [found] at right
        obtain ⟨counted, live, kept⟩ := right
        obtain ⟨owner, member, owns⟩ := exists_owner (counted ▸ live)
        have content : payload.content = cell.content :=
          (same owner member owns).symm.trans (kept owner member owns)
        have count := (congrArg Nat.succ counted).trans (owners_cons_self marked payloads).symm
        exact ⟨count, Nat.succ_pos _, List.forall_mem_cons.mpr ⟨fun _ => content, kept⟩⟩
    | none =>
        rw [found] at right
        have unowned : 0 = owners payloads other := right.symm
        have count := (congrArg Nat.succ unowned).trans (owners_cons_self marked payloads).symm
        exact ⟨count, Nat.one_pos, List.forall_mem_cons.mpr ⟨fun _ => rfl, same⟩⟩
  · rw [if_neg own, accounted_cons_ne (apart_of_marked marked own)]
    exact right

theorem release (holds : store.Holds (payload :: payloads)) (marked : payload.mark = some mark) :
    (store.release payload).Holds payloads := by
  rw [Store.release, marked, holds_iff]
  intro other
  dsimp only
  rw [cell?_drop]
  have right := holds_iff.mp holds other
  by_cases own : other = mark
  · subst own
    rw [if_pos rfl]
    obtain ⟨links, found⟩ := holds.kept payload List.mem_cons_self other marked
    rw [found] at right
    obtain ⟨counted, _, kept⟩ := right
    rw [owners_cons_self marked] at counted
    have count : store.links other = links := by rw [Store.links, found]
    dsimp only at counted
    by_cases last : store.links other ≤ 1
    · rw [if_pos last]
      show owners payloads other = 0
      omega
    · have more : 1 < links := by omega
      rw [if_neg last, found]
      exact ⟨Nat.sub_eq_of_eq_add counted, Nat.sub_pos_of_lt more,
        fun owner member => kept owner (List.mem_cons_of_mem _ member)⟩
  · rw [if_neg own]
    exact (accounted_cons_ne (apart_of_marked marked own)).mp right

theorem write (holds : store.Holds (payload :: payloads)) (marked : payload.mark = some mark)
    (alone : owners payloads mark = 0) (content : α) :
    (store.write mark content).Holds ({ payload with content } :: payloads) := by
  have still : ({ payload with content } : Payload α).mark = some mark := marked
  rw [holds_iff]
  intro other
  rw [Store.write, cell?_modify]
  have right := holds_iff.mp holds other
  by_cases own : other = mark
  · subst own
    rw [if_pos rfl]
    obtain ⟨links, found⟩ := holds.kept payload List.mem_cons_self other marked
    rw [found] at right ⊢
    obtain ⟨counted, live, _⟩ := right
    rw [owners_cons_self marked] at counted
    refine ⟨?_, live, List.forall_mem_cons.mpr ⟨fun _ => rfl, ?_⟩⟩
    · rw [owners_cons_self still]
      exact counted
    · exact fun owner member owns => absurd owns (not_owned alone member)
  · rw [if_neg own, accounted_cons_ne (apart_of_marked still own)]
    exact (accounted_cons_ne (apart_of_marked marked own)).mp right

theorem write_same (holds : store.Holds payloads) {mark : Mark} {content : α}
    (same : ∀ payload ∈ payloads, payload.mark = some mark → payload.content = content) :
    (store.write mark content).Holds payloads := by
  rw [holds_iff]
  intro other
  rw [Store.write, cell?_modify]
  have right := holds_iff.mp holds other
  by_cases own : other = mark
  · subst own
    rw [if_pos rfl]
    cases found : store.cell? other with
    | none =>
        rw [found] at right
        exact right
    | some cell =>
        rw [found] at right
        exact ⟨right.1, right.2.1, same⟩
  · rw [if_neg own]
    exact right

end Holds

end Store

namespace Part

def number? : Part → Option (Payload Number)
  | number payload => some payload
  | text _ => none

def text? : Part → Option (Payload Bytes)
  | number _ => none
  | text payload => some payload

theorem mem_numbers {parts : List Part} {payload : Payload Number} :
    payload ∈ parts.filterMap number? ↔ .number payload ∈ parts := by
  rw [List.mem_filterMap]
  constructor
  · rintro ⟨part, member, shape⟩
    cases part with
    | text _ => cases shape
    | number _ =>
        cases shape
        exact member
  · exact fun member => ⟨_, member, rfl⟩

theorem mem_texts {parts : List Part} {payload : Payload Bytes} :
    payload ∈ parts.filterMap text? ↔ .text payload ∈ parts := by
  rw [List.mem_filterMap]
  constructor
  · rintro ⟨part, member, shape⟩
    cases part with
    | number _ => cases shape
    | text _ =>
        cases shape
        exact member
  · exact fun member => ⟨_, member, rfl⟩

theorem owners_number (parts : List Part) (mark : Mark) :
    Store.owners (parts.filterMap number?) mark = owners parts (.number mark) := by
  rw [Store.owners, List.countP_filterMap, owners]
  congr 1
  funext part
  cases part with
  | number payload => cases marked : payload.mark <;> simp [number?, owns, id?, marked]
  | text payload => cases marked : payload.mark <;> simp [number?, owns, id?, marked]

theorem owners_text (parts : List Part) (mark : Mark) :
    Store.owners (parts.filterMap text?) mark = owners parts (.text mark) := by
  rw [Store.owners, List.countP_filterMap, owners]
  congr 1
  funext part
  cases part with
  | number payload => cases marked : payload.mark <;> simp [text?, owns, id?, marked]
  | text payload => cases marked : payload.mark <;> simp [text?, owns, id?, marked]

end Part

namespace Heap

def links (heap : Heap) : PayloadId → Nat
  | .number mark => heap.numbers.links mark
  | .text mark => heap.texts.links mark

/-- Both stores hold what the places own. -/
structure Holds (heap : Heap) (parts : List Part) : Prop where
  numbers : heap.numbers.Holds (parts.filterMap Part.number?)
  texts : heap.texts.Holds (parts.filterMap Part.text?)

theorem release_handle (heap : Heap) (part : Part) :
    heap.release (part.visit Visit.handles) = heap.release part := by
  cases part <;> rfl

theorem releaseAll_handles (heap : Heap) (parts : List Part) :
    heap.releaseAll (parts.map (Part.visit Visit.handles)) = heap.releaseAll parts := by
  rw [releaseAll, List.foldl_map]
  exact congrArg (List.foldl · heap parts) (funext₂ release_handle)

theorem releaseAll_next (heap : Heap) (parts : List Part) :
    (heap.releaseAll parts).next = heap.next := by
  induction parts generalizing heap with
  | nil => rfl
  | cons part rest ih => exact (ih (heap.release part)).trans (by cases part <;> rfl)

theorem holdAll_next (heap : Heap) (parts : List Part) : (heap.holdAll parts).next = heap.next := by
  induction parts generalizing heap with
  | nil => rfl
  | cons part rest ih => exact (ih (heap.hold part)).trans (by cases part <;> rfl)

namespace Holds

variable {heap : Heap} {parts others : List Part} {part : Part}

theorem links_eq (holds : heap.Holds parts) (id : PayloadId) :
    heap.links id = Part.owners parts id := by
  cases id with
  | number mark => exact (holds.numbers.counted mark).trans (Part.owners_number parts mark)
  | text mark => exact (holds.texts.counted mark).trans (Part.owners_text parts mark)

theorem perm (holds : heap.Holds parts) (same : parts.Perm others) : heap.Holds others :=
  ⟨holds.numbers.perm (same.filterMap _), holds.texts.perm (same.filterMap _)⟩

theorem read (holds : heap.Holds parts) (member : part ∈ parts) (marked : part.mark.isSome) :
    (part.visit Visit.handles).visit heap.reading = part := by
  cases part with
  | number payload =>
      exact congrArg Part.number (holds.numbers.read (Part.mem_numbers.mpr member) marked rfl)
  | text payload =>
      exact congrArg Part.text (holds.texts.read (Part.mem_texts.mpr member) marked rfl)

theorem load (holds : heap.Holds parts) {value : Value}
    (each : ∀ part ∈ value.parts, part ∈ parts ∧ part.mark.isSome) :
    heap.load (value.visit Visit.handles) = value :=
  value.visit_visit fun part member => holds.read (each part member).1 (each part member).2

theorem hold (holds : heap.Holds parts) (marked : part.mark.isSome) {next : Mark}
    (known : Known next (part :: parts)) : (heap.hold part).Holds (part :: parts) := by
  obtain ⟨mark, owned⟩ := Option.isSome_iff_exists.mp marked
  cases part with
  | number payload =>
      refine ⟨holds.numbers.hold owned fun other member same => ?_, holds.texts⟩
      have within := List.mem_cons_of_mem (Part.number payload) (Part.mem_numbers.mp member)
      exact congrArg Payload.content (known.number_eq within List.mem_cons_self same owned)
  | text payload =>
      refine ⟨holds.numbers, holds.texts.hold owned fun other member same => ?_⟩
      have within := List.mem_cons_of_mem (Part.text payload) (Part.mem_texts.mp member)
      exact congrArg Payload.content (known.text_eq within List.mem_cons_self same owned)

theorem release (holds : heap.Holds (part :: parts)) (marked : part.mark.isSome) :
    (heap.release part).Holds parts := by
  obtain ⟨mark, owned⟩ := Option.isSome_iff_exists.mp marked
  cases part with
  | number payload => exact ⟨holds.numbers.release owned, holds.texts⟩
  | text payload => exact ⟨holds.numbers, holds.texts.release owned⟩

theorem holdAll (holds : heap.Holds others) (marked : ∀ part ∈ parts, part.mark.isSome)
    {next : Mark} (known : Known next (parts ++ others)) :
    (heap.holdAll parts).Holds (parts ++ others) := by
  induction parts generalizing heap others with
  | nil => exact holds
  | cons part rest ih =>
      obtain ⟨first, later⟩ := List.forall_mem_cons.mp marked
      have one : Known next (part :: others) := known.mono fun other member => by
        rcases List.mem_cons.mp member with rfl | old
        · exact List.mem_append_left _ List.mem_cons_self
        · exact List.mem_append_right _ old
      have moved : (rest ++ part :: others).Perm (part :: rest ++ others) := List.perm_middle
      have all := ih (holds.hold first one) later (known.mono fun _ member => moved.mem_iff.mp member)
      exact all.perm moved

theorem releaseAll (holds : heap.Holds (parts ++ others))
    (marked : ∀ part ∈ parts, part.mark.isSome) : (heap.releaseAll parts).Holds others := by
  induction parts generalizing heap with
  | nil => exact holds
  | cons part rest ih =>
      obtain ⟨first, later⟩ := List.forall_mem_cons.mp marked
      exact ih (Holds.release holds first) later

/-- A text is written for the place that owns it, and for no other. -/
theorem rewrite {payload text : Payload Bytes} {mark : Mark}
    (holds : heap.Holds (.text payload :: others)) (known : Known heap.next (.text payload :: others))
    (marked : payload.mark = some mark) (same : text.mark = some mark) (content : Bytes) :
    let (own, after) := heap.isolate text
    own.mark = some (if Part.owners others (.text mark) = 0 then mark else heap.next)
      ∧ after.next = (if Part.owners others (.text mark) = 0 then heap.next else heap.next + 1)
      ∧ (after.writeText own content).Holds (.text { own with content } :: others) := by
  have count := holds.links_eq (.text mark)
  rw [Part.owners, List.countP_cons_of_pos (by simp [Part.owns, Part.id?, marked])] at count
  change heap.texts.links mark = Part.owners others (.text mark) + 1 at count
  unfold isolate
  rw [same]
  dsimp only
  by_cases alone : Part.owners others (.text mark) = 0
  · rw [if_pos (by omega), if_pos alone, if_pos alone]
    refine ⟨same, rfl, ?_⟩
    rw [writeText, same]
    refine ⟨holds.numbers, ?_⟩
    have written := holds.texts.write marked ((Part.owners_text others mark).trans alone) content
    rw [marked] at written
    exact written
  · rw [if_neg (by omega), if_neg alone, if_neg alone]
    refine ⟨rfl, rfl, ?_⟩
    -- The copy is held before the text is let go of, so the text stays for its other owners.
    let copy : Payload Bytes :=
      { content := (heap.texts.read text).content, mark := some heap.next }
    have unowned : Part.owners (.text payload :: others) (.text heap.next) = 0 :=
      known.owners_of_later (Nat.le_refl _)
    have fresh : ∀ other ∈ Part.text payload :: others, other.id? ≠ some (.text heap.next) :=
      fun other member same =>
        List.countP_eq_zero.mp unowned other member (beq_iff_eq.mpr same)
    have grown : Known (heap.next + 1) (.text copy :: .text payload :: others) := by
      refine (known.weaken (Nat.le_succ _)).cons ?_ ?_
      · rintro tag ⟨⟩
        exact Nat.lt_succ_self _
      · rintro id ⟨⟩
        exact fresh
    have owned : (Part.text copy).mark.isSome := rfl
    have both := (holds.hold owned grown).perm (List.Perm.swap _ _ _)
    have left := (both.release (by rw [Part.mark, marked]; rfl)).texts
    rw [Heap.release, Heap.hold] at left
    dsimp only at left
    rw [Store.release, marked] at left
    have apart : Part.owners others (.text heap.next) = 0 :=
      List.countP_eq_zero.mpr fun other member same =>
        fresh other (List.mem_cons_of_mem _ member) (beq_iff_eq.mp same)
    refine ⟨holds.numbers, ?_⟩
    exact left.write rfl ((Part.owners_text others _).trans apart) content

end Holds

end Heap

end Calculator
