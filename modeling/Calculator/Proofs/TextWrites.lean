import Calculator.Proofs.SessionPayloads

/-!
# Writes to texts

A text is written through one of its owners. Where that is the only one, it is written where it is kept;
else the owner gets a copy of its own, and the others keep the text with one link less. A variable that
takes back a text after a copy comes to the same.
-/

namespace Calculator

theorem Heap.writeText_marked (heap : Heap) {text : Payload Bytes} {mark : Mark}
    (owned : text.mark = some mark) (content : Bytes) :
    heap.writeText text content = { heap with texts := heap.texts.write mark content } := by
  rw [writeText, owned]

namespace View

/-- No other place owns the text. -/
def isAlone (view : View) (text : Payload Bytes) : Bool :=
  match text.mark with
  | some mark => Part.owners view.parts (.text mark) ≤ 1
  | none => true

def renew (view : View) (text : Payload Bytes) (content : Bytes) : Payload Bytes where
  content := content
  mark := if view.isAlone text then text.mark else some view.next

/-- The view once a text in a variable is written; `around` is what the variable holds around it. -/
def rewrite (view : View) (name : String) (around : Payload Bytes → Value)
    (text : Payload Bytes) (content : Bytes) : View :=
  { view.store name (around (view.renew text content)) with
    next := if view.isAlone text then view.next else view.next + 1 }

section Texts

variable {view : View} {name : String} {text : Payload Bytes} {rest : List Part} {mark : Mark}

theorem owners_text {places : List Part} (around : places.Perm (.text text :: rest))
    (owned : text.mark = some mark) :
    Part.owners places (.text mark) = Part.owners rest (.text mark) + 1 := by
  rw [Part.owners, around.countP_eq, List.countP_cons_of_pos]
  · rfl
  · simp [Part.owns, Part.id?, owned]

theorem isAlone_iff (around : view.parts.Perm (.text text :: rest)) (owned : text.mark = some mark) :
    view.isAlone text = true ↔ Part.owners rest (.text mark) = 0 := by
  simp only [isAlone, owned, owners_text around owned, decide_eq_true_eq]
  omega

theorem Settled.text_marked (settled : view.Settled) (around : view.parts.Perm (.text text :: rest)) :
    ∃ mark, text.mark = some mark :=
  Option.isSome_iff_exists.mp
    (settled.owned (.text text) (around.mem_iff.mpr List.mem_cons_self))

theorem Settled.renew_known (settled : view.Settled)
    (around : view.parts.Perm (.text text :: rest)) (content : Bytes) :
    Known (if view.isAlone text then view.next else view.next + 1)
      (.text (view.renew text content) :: rest) := by
  obtain ⟨mark, owned⟩ := settled.text_marked around
  have known : Known view.next rest :=
    settled.known.mono fun part within => around.mem_iff.mpr (List.mem_cons_of_mem _ within)
  have below : mark < view.next :=
    settled.known.below (.text text) (around.mem_iff.mpr List.mem_cons_self) mark owned
  rw [renew]
  cases only : view.isAlone text with
  | true =>
      have alone := (isAlone_iff around owned).mp only
      refine known.cons ?_ ?_
      · rintro tag same
        cases owned.symm.trans same
        exact below
      · intro id same other within shared
        have named : id = .text mark := by
          rw [Part.id?, if_pos rfl, owned] at same
          exact (Option.some.inj same).symm
        rw [Part.owners, List.countP_eq_zero] at alone
        exact alone other within (beq_iff_eq.mpr (named ▸ shared))
  | false =>
      refine (known.weaken (Nat.le_succ _)).cons ?_ ?_
      · rintro tag ⟨⟩
        exact Nat.lt_succ_self _
      · rintro id ⟨⟩ other within shared
        have unowned : Part.owners rest (.text view.next) = 0 :=
          known.owners_of_later (Nat.le_refl _)
        rw [Part.owners, List.countP_eq_zero] at unowned
        exact unowned other within (beq_iff_eq.mpr shared)

theorem store_self {value : Value} (stored : view.value? name = some value) :
    view.store name value = view := by
  rw [store, Session.setVariable_self stored]

theorem assign_text {protection : Protection} (owned : text.mark = some mark) :
    view.assign name ⟨.text text, protection⟩ = view.store name ⟨.text text, protection⟩ := by
  simp only [assign, Value.place, Value.placeData, Payload.place, owned]
  rfl

end Texts

section Holes

variable {view : View} {name : String} {around : Payload Bytes → Value} {text : Payload Bytes}
  {front back : List Part}

theorem parts_hole (stored : view.value? name = some (around text))
    (hole : (around text).parts = front ++ .text text :: back) :
    view.parts.Perm (.text text :: (front ++ back ++ view.others name)) := by
  have apart := view.parts_around name
  rw [held_of_value stored, hole] at apart
  exact apart.trans (List.perm_middle.append_right _)

theorem parts_rewrite {content : Bytes}
    (hole : (around (view.renew text content)).parts
      = front ++ .text (view.renew text content) :: back) :
    (view.rewrite name around text content).parts.Perm
      (.text (view.renew text content) :: (front ++ back ++ view.others name)) := by
  have stored := view.parts_store name (around (view.renew text content))
  rw [hole] at stored
  exact stored.trans (List.perm_middle.append_right _)

theorem Settled.rewrite (settled : view.Settled) (stored : view.value? name = some (around text))
    (hole : ∀ text, (around text).parts = front ++ .text text :: back) (content : Bytes) :
    (view.rewrite name around text content).Settled := by
  have apart := parts_hole stored (hole text)
  have known := settled.renew_known apart content
  have whole : ((around (view.renew text content)).parts ++ view.others name).Perm
      (.text (view.renew text content) :: (front ++ back ++ view.others name)) := by
    rw [hole]
    exact List.perm_middle.append_right _
  refine settled.store (known.mono fun part member => whole.mem_iff.mp member) ?_
  intro part member
  rw [hole] at member
  obtain ⟨mark, owned⟩ := settled.text_marked apart
  rcases List.mem_cons.mp (List.perm_middle.mem_iff.mp member) with rfl | old
  · rw [Part.mark, renew]
    dsimp only
    split
    · rw [owned]
      rfl
    · rfl
  · exact settled.owned part (apart.mem_iff.mpr
      (List.mem_cons_of_mem _ (List.mem_append_left _ old)))

theorem parts_text {protection : Protection}
    (stored : view.value? name = some ⟨.text text, protection⟩) :
    view.parts.Perm (.text text :: view.others name) :=
  @parts_hole view name (fun own => ⟨.text own, protection⟩) text [] [] stored rfl

end Holes

end View

namespace Session

namespace Shows

variable {session : Session} {view : View} {name : String} {text : Payload Bytes}
  {protection : Protection}

theorem isExclusive_eq (shows : session.Shows view) (text : Payload Bytes)
    (protection : Protection) :
    session.isExclusive ⟨.text text, protection⟩ true = view.isAlone text := by
  unfold isExclusive View.isAlone
  dsimp only
  cases text.mark with
  | none => rfl
  | some mark =>
      have count : session.heap.texts.links mark = Part.owners view.parts (.text mark) :=
        shows.holds.links_eq (.text mark)
      simp only [count, if_true]

/-- A text that is written anywhere in a variable. -/
theorem writeText (shows : session.Shows view) {around : Payload Bytes → Value}
    {front back : List Part} (stored : view.value? name = some (around text))
    (hole : ∀ text, (around text).parts = front ++ .text text :: back) {handle : Payload Bytes}
    (same : handle.mark = text.mark) (content : Bytes) :
    (session.writeText name around handle content).Shows
      (view.rewrite name around text content) := by
  have apart := View.parts_hole stored (hole text)
  obtain ⟨mark, owned⟩ := shows.settled.text_marked apart
  have known : Known session.heap.next (.text text :: (front ++ back ++ view.others name)) := by
    rw [shows.next]
    exact shows.settled.known.mono fun part member => apart.mem_iff.mpr member
  have written := (shows.holds.perm apart).rewrite known owned (same.trans owned) content
  have alone := View.isAlone_iff apart owned
  unfold Session.writeText
  generalize session.heap.isolate handle = isolated at written
  obtain ⟨own, after⟩ := isolated
  obtain ⟨mark', next, holds⟩ := written
  have new : ({ own with content } : Payload Bytes) = view.renew text content := by
    rw [View.renew, mark', owned, shows.next]
    by_cases only : Part.owners (front ++ back ++ view.others name) (.text mark) = 0
    · rw [if_pos only, if_pos (alone.mpr only)]
    · rw [if_neg only, if_neg fun yes => only (alone.mp yes)]
  have kept (heap : Heap) : (heap.writeText own content).next = heap.next := by
    unfold Heap.writeText
    split <;> rfl
  refine ⟨?_, shows.constants, shows.literals, ?_, ?_, shows.settled.rewrite stored hole content⟩
  · dsimp only
    rw [new, shows.bindings]
    exact (setVariable_map (Value.visit Visit.handles) name _ view.bindings).symm
  · dsimp only
    rw [kept, next, shows.next, View.rewrite]
    by_cases only : Part.owners (front ++ back ++ view.others name) (.text mark) = 0
    · rw [if_pos only, if_pos (alone.mpr only)]
    · rw [if_neg only, if_neg fun yes => only (alone.mp yes)]
  · rw [new] at holds
    exact holds.perm (View.parts_rewrite (hole _)).symm

theorem setTextByte (shows : session.Shows view)
    (stored : view.value? name = some ⟨.text text, protection⟩) (index : Nat) (byte : UInt8) :
    (session.setTextByte name index byte).1 = decide (index < text.content.length)
      ∧ (session.setTextByte name index byte).2.Shows
        (view.rewrite name (fun own => ⟨.text own, protection⟩) text (text.content.set index byte)) := by
  have handle : session.stored? name = some ⟨.text text.handle, protection⟩ := by
    rw [shows.stored?, stored]
    rfl
  have listed : Part.text text ∈ view.parts :=
    (View.parts_text stored).mem_iff.mpr List.mem_cons_self
  have read := shows.holds.read listed (shows.settled.owned _ listed)
  have content : (session.heap.texts.read text.handle).content = text.content :=
    congrArg Payload.content (Part.text.inj read)
  unfold Session.setTextByte
  rw [handle]
  dsimp only
  rw [content]
  exact ⟨rfl, @writeText session view name text shows (fun own => ⟨.text own, protection⟩) [] [] stored
    (fun _ => rfl) text.handle rfl _⟩

theorem setTextByte_of_no_text (shows : session.Shows view)
    (none : ∀ text protection, view.value? name ≠ some ⟨.text text, protection⟩) (index : Nat)
    (byte : UInt8) : session.setTextByte name index byte = (false, session) := by
  unfold Session.setTextByte
  split
  · rename_i handle protection held
    rw [shows.stored?] at held
    obtain ⟨⟨data, bits⟩, stored, visited⟩ := Option.map_eq_some_iff.mp held
    cases data with
    | text text => exact absurd stored (none text bits)
    | _ => cases visited
  · rfl

theorem writeInPlace (shows : session.Shows view)
    (stored : view.value? name = some ⟨.text text, protection⟩) (only : view.isAlone text = true)
    (content : Bytes) :
    ({ session with heap := session.heap.writeText { text with content } content } : Session).Shows
      (view.store name ⟨.text { text with content }, protection⟩) := by
  have apart := View.parts_text stored
  obtain ⟨mark, owned⟩ := shows.settled.text_marked apart
  have still : ({ text with content } : Payload Bytes).mark = some mark := owned
  rw [session.heap.writeText_marked still]
  have alone := (View.isAlone_iff apart owned).mp only
  have rewritten := @View.Settled.rewrite view name (fun own => ⟨.text own, protection⟩) text [] []
    shows.settled stored (fun _ => rfl) content
  simp only [View.rewrite, View.renew, only, if_true] at rewritten
  refine ⟨?_, shows.constants, shows.literals, shows.next, ?_, rewritten⟩
  · have put := setVariable_map (Value.visit Visit.handles) name
      ⟨.text { text with content }, protection⟩ view.bindings
    rw [← shows.bindings] at put
    have handle : session.stored? name = some ⟨.text text.handle, protection⟩ := by
      rw [shows.stored?, stored]
      rfl
    exact (setVariable_self handle).symm.trans put.symm
  · have holds := shows.holds.perm apart
    have texts := holds.texts.write owned ((Part.owners_text _ mark).trans alone) content
    have both : ({ session.heap with texts := session.heap.texts.write mark content } : Heap).Holds
        (.text { text with content } :: view.others name) := ⟨holds.numbers, texts⟩
    exact both.perm (view.parts_store name ⟨.text { text with content }, protection⟩).symm

theorem putBack_text (shows : session.Shows view)
    (stored : view.value? name = some ⟨.text text, protection⟩) (content : Bytes) :
    (session.putBack name
        ⟨.text { content, mark := if view.isAlone text then text.mark else none }, protection⟩).Shows
      (view.rewrite name (fun own => ⟨.text own, protection⟩) text content) := by
  cases only : view.isAlone text with
  | true =>
      obtain ⟨mark, owned⟩ := shows.settled.text_marked (View.parts_text stored)
      have written := shows.writeInPlace stored only content
      have kept := @assign _ _ name written ⟨.text { text with content }, protection⟩
        (written.settled.known.mono fun part member => by
          rcases List.mem_append.mp member with own | old
          · exact (view.parts_store name _).mem_iff.mpr (List.mem_append_left _ own)
          · exact old)
      have still : ({ text with content } : Payload Bytes).mark = some mark := owned
      rw [View.assign_text still,
        View.store_self (view.value?_store name _)] at kept
      simp only [View.rewrite, View.renew, only, if_true]
      exact kept
  | false =>
      have known : Known view.next
          ((⟨.text { content }, protection⟩ : Value).parts ++ view.parts) := by
        apply shows.settled.known.drawn
        intro part member
        rcases List.mem_append.mp member with own | old
        · rw [List.mem_singleton.mp own]
          exact .inl rfl
        · exact .inr old
      have same : view.rewrite name (fun own => ⟨.text own, protection⟩) text content
          = view.assign name ⟨.text { content }, protection⟩ := by
        simp only [View.rewrite, View.renew, only, View.assign, Value.place, Value.placeData,
          Payload.place, Bool.false_eq_true, if_false]
      rw [same]
      exact shows.assign known

end Shows

def parts (session : Session) : List Part :=
  session.view.parts

def others (session : Session) (name : String) : List Part :=
  session.view.others name

/-- A text is written over through one place, and no other sees it. -/
structure Rewritten (before : Session) (old new : Payload Bytes) (after : Session) : Prop where
  places : ∃ rest, before.parts.Perm (.text old :: rest) ∧ after.parts.Perm (.text new :: rest)
  alone : after.links? (.plain (.text new)) = some 1
  kept : before.links? (.plain (.text old)) = some 1 → old.identical new = true
  fresh : before.links? (.plain (.text old)) ≠ some 1 →
    old.identical new = false ∧ before.links? (.plain (.text new)) = some 0
      ∧ ∃ links, before.links? (.plain (.text old)) = some (links + 1)
        ∧ after.links? (.plain (.text old)) = some links

section Rewriting

variable {before after : Session} {view : View} {name : String} {around : Payload Bytes → Value}
  {text : Payload Bytes} {front back : List Part} {content : Bytes}

theorem Shows.links?_text (shows : before.Shows view) (text : Payload Bytes) {mark : Mark}
    (owned : text.mark = some mark) :
    before.links? (.plain (.text text)) = some (Part.owners view.parts (.text mark)) := by
  have counted := shows.links?_eq (.text text) Protection.none
  rw [Part.id?, owned] at counted
  exact counted

/-- A text has one owner once it is written: the only one it had, or the one that has left the others. -/
theorem Shows.rewritten (shows : before.Shows view)
    (later : after.Shows (view.rewrite name around text content))
    (stored : view.value? name = some (around text))
    (hole : ∀ text, (around text).parts = front ++ .text text :: back) :
    Rewritten before text (view.renew text content) after := by
  have apart := View.parts_hole stored (hole text)
  have changed : (view.rewrite name around text content).parts.Perm
      (.text (view.renew text content) :: (front ++ back ++ view.others name)) :=
    View.parts_rewrite (hole _)
  obtain ⟨mark, owned⟩ := shows.settled.text_marked apart
  have alone := View.isAlone_iff apart owned
  have known : Known view.next (front ++ back ++ view.others name) :=
    shows.settled.known.mono fun part within => apart.mem_iff.mpr (List.mem_cons_of_mem _ within)
  have count := shows.links?_text text owned
  rw [View.owners_text apart owned] at count
  have places : ∃ rest, before.parts.Perm (.text text :: rest)
      ∧ after.parts.Perm (.text (view.renew text content) :: rest) := by
    rw [parts, parts, shows.view_eq, later.view_eq]
    exact ⟨_, apart, changed⟩
  cases only : view.isAlone text with
  | true =>
      have none := alone.mp only
      have new : (view.renew text content).mark = some mark := by
        rw [View.renew, only, if_pos rfl, owned]
      have now := later.links?_text (view.renew text content) new
      rw [View.owners_text changed new, none] at now
      rw [none] at count
      refine ⟨places, now, fun _ => ?_, fun more => absurd count more⟩
      rw [Payload.identical, owned, new]
      exact beq_self_eq_true mark
  | false =>
      have shared : Part.owners (front ++ back ++ view.others name) (.text mark) ≠ 0 := fun none => by
        rw [alone.mpr none] at only
        cases only
      have new : (view.renew text content).mark = some view.next := by
        rw [View.renew, only, if_neg Bool.false_ne_true]
      have below : mark < view.next :=
        shows.settled.known.below (.text text) (apart.mem_iff.mpr List.mem_cons_self) mark owned
      have differs : view.next ≠ mark := Nat.ne_of_gt below
      have now := later.links?_text (view.renew text content) new
      rw [View.owners_text changed new, known.owners_of_later (Nat.le_refl _)] at now
      have unowned := shows.links?_text (view.renew text content) new
      rw [shows.settled.known.owners_of_later (Nat.le_refl _)] at unowned
      have left := later.links?_text text owned
      rw [Part.owners, changed.countP_eq,
        List.countP_cons_of_neg (by simp [Part.owns, Part.id?, new, differs])] at left
      refine ⟨places, now, fun one => ?_, fun _ => ⟨?_, unowned, _, count, left⟩⟩
      · rw [count] at one
        exact absurd (Nat.succ.inj (Option.some.inj one)) shared
      · rw [Payload.identical, owned, new]
        exact beq_false_of_ne fun same => differs (Option.some.inj same).symm

end Rewriting

end Session

end Calculator
