import Calculator.Proofs.BlockSession
import Calculator.Proofs.DrawnPayloads
import Calculator.Proofs.StoredPools
import Mathlib.Data.List.Nodup

/-!
# Payloads of a session

A session shows the values that its handles stand for. In view, a value that is stored takes the place
of what its variable held, and nothing else is seen to change. The heap of the session holds what is in
view: each payload once, with a link for each place that owns it.
-/

namespace Calculator

namespace Session

section Variables

variable {name other : String} {value : Value} {bindings : List (String × Value)}

theorem lookup_setVariable (name : String) (value : Value) (bindings : List (String × Value)) :
    (setVariable name value bindings).lookup name = some value := by
  induction bindings with
  | nil => rw [setVariable, List.lookup_cons_self]
  | cons entry rest ih =>
      rw [setVariable]
      split
      · rw [List.lookup_cons_self]
      · rename_i apart
        rw [List.lookup_cons, BEq.comm, Bool.eq_false_iff.mpr apart, ih]

theorem lookup_setVariable_ne (apart : other ≠ name) (value : Value)
    (bindings : List (String × Value)) :
    (setVariable name value bindings).lookup other = bindings.lookup other := by
  have missed : (other == name) = false := beq_false_of_ne apart
  induction bindings with
  | nil => rw [setVariable, List.lookup_cons, missed]
  | cons entry rest ih =>
      rw [setVariable]
      split
      · rename_i same
        rw [List.lookup_cons, List.lookup_cons, missed, eq_of_beq same, missed]
      · rw [List.lookup_cons, List.lookup_cons, ih]

theorem eraseP_setVariable (name : String) (value : Value) (bindings : List (String × Value)) :
    (setVariable name value bindings).eraseP (fun entry => entry.1 == name)
      = bindings.eraseP fun entry => entry.1 == name := by
  induction bindings with
  | nil => simp [setVariable]
  | cons entry rest ih =>
      rw [setVariable]
      split
      · rename_i same
        simp [same]
      · rename_i apart
        simp [apart, ih]

theorem setVariable_self (stored : bindings.lookup name = some value) :
    setVariable name value bindings = bindings := by
  induction bindings with
  | nil => cases stored
  | cons entry rest ih =>
      rw [List.lookup_cons] at stored
      rw [setVariable]
      split
      · rename_i same
        rw [BEq.comm, same] at stored
        cases stored
        rw [← eq_of_beq same]
      · rename_i apart
        rw [BEq.comm, Bool.eq_false_iff.mpr apart] at stored
        rw [ih stored]

theorem nodup_setVariable (name : String) (value : Value)
    (distinct : (bindings.map Prod.fst).Nodup) :
    ((setVariable name value bindings).map Prod.fst).Nodup := by
  induction bindings with
  | nil => exact List.nodup_singleton name
  | cons entry rest ih =>
      obtain ⟨new, others⟩ := List.nodup_cons.mp distinct
      rw [setVariable]
      split
      · rename_i same
        rw [List.map_cons, ← eq_of_beq same]
        exact distinct
      · rename_i apart
        refine List.nodup_cons.mpr ⟨?_, ih others⟩
        intro member
        obtain ⟨other, stored, same⟩ := List.mem_map.mp member
        rcases mem_setVariable stored with rfl | old
        · exact apart (beq_iff_eq.mpr same.symm)
        · exact new (List.mem_map.mpr ⟨other, old, same⟩)

theorem filter_eq_eraseP (name : String) (distinct : (bindings.map Prod.fst).Nodup) :
    (bindings.filter fun entry => entry.1 != name) = bindings.eraseP fun entry => entry.1 == name := by
  induction bindings with
  | nil => rfl
  | cons entry rest ih =>
      obtain ⟨new, others⟩ := List.nodup_cons.mp distinct
      rw [List.filter_cons, List.eraseP_cons, bne]
      cases same : entry.1 == name with
      | true =>
          apply List.filter_eq_self.mpr
          intro other member
          refine bne_iff_ne.mpr fun equal => new ?_
          rw [eq_of_beq same, ← equal]
          exact List.mem_map_of_mem member
      | false => exact congrArg (entry :: ·) (ih others)

theorem setVariable_map (change : Value → Value) (name : String) (value : Value)
    (bindings : List (String × Value)) :
    (setVariable name value bindings).map (Prod.map id change)
      = setVariable name (change value) (bindings.map (Prod.map id change)) := by
  induction bindings with
  | nil => rfl
  | cons entry rest ih =>
      rw [List.map_cons, setVariable, setVariable]
      by_cases same : (entry.1 == name) = true
      · rw [if_pos same, if_pos (show ((Prod.map id change entry).1 == name) = true from same)]
        rfl
      · rw [if_neg same, if_neg (show ¬((Prod.map id change entry).1 == name) = true from same),
          List.map_cons, ih]

theorem lookup_map (change : Value → Value) (name : String) (bindings : List (String × Value)) :
    (bindings.map (Prod.map id change)).lookup name = (bindings.lookup name).map change := by
  induction bindings with
  | nil => rfl
  | cons entry rest ih =>
      rw [List.map_cons, List.lookup_cons, List.lookup_cons, ih]
      dsimp only [Prod.map, id]
      split <;> rfl

end Variables

end Session

/-- What a session shows: the values of its variables and the payloads in its pools. -/
structure View where
  bindings : List (String × Value)
  constants : Constants
  literals : Literals
  next : Mark

namespace View

def bindingParts (bindings : List (String × Value)) : List Part :=
  bindings.flatMap fun entry => entry.2.parts

def poolParts (view : View) : List Part :=
  view.constants.payloads.map Part.number ++ view.literals.payloads.map Part.text

def parts (view : View) : List Part :=
  bindingParts view.bindings ++ view.poolParts

def value? (view : View) (name : String) : Option Value :=
  view.bindings.lookup name

def held (view : View) (name : String) : List Part :=
  ((view.value? name).map Value.parts).getD []

def others (view : View) (name : String) : List Part :=
  bindingParts (view.bindings.eraseP fun entry => entry.1 == name) ++ view.poolParts

def store (view : View) (name : String) (value : Value) : View :=
  { view with bindings := Session.setVariable name value view.bindings }

def assign (view : View) (name : String) (value : Value) : View :=
  let (placed, next) := value.place view.next
  { view.store name placed with next }

def erase (view : View) (name : String) : View :=
  { view with bindings := view.bindings.filter fun entry => entry.1 != name }

/-- Every place is marked, and one mark means one payload. -/
structure Settled (view : View) : Prop where
  known : Known view.next view.parts
  owned : ∀ part ∈ view.parts, part.mark.isSome
  distinct : (view.bindings.map Prod.fst).Nodup

variable {view : View} {name : String}

theorem bindingParts_around (name : String) (bindings : List (String × Value)) :
    (bindingParts bindings).Perm
      (((bindings.lookup name).map Value.parts).getD []
        ++ bindingParts (bindings.eraseP fun entry => entry.1 == name)) := by
  induction bindings with
  | nil => exact List.Perm.refl _
  | cons entry rest ih =>
      rw [List.lookup_cons, BEq.comm, List.eraseP_cons]
      cases same : entry.1 == name with
      | true => exact List.Perm.refl _
      | false =>
          simp only [bindingParts, List.flatMap_cons, cond_false] at ih ⊢
          exact (ih.append_left entry.2.parts).trans (List.perm_append_comm_assoc _ _ _)

theorem parts_around (view : View) (name : String) :
    view.parts.Perm (view.held name ++ view.others name) := by
  rw [parts, others, ← List.append_assoc]
  exact (bindingParts_around name view.bindings).append_right _

theorem others_subset {part : Part} (member : part ∈ view.others name) : part ∈ view.parts :=
  (view.parts_around name).mem_iff.mpr (List.mem_append_right _ member)

theorem held_subset {part : Part} (member : part ∈ view.held name) : part ∈ view.parts :=
  (view.parts_around name).mem_iff.mpr (List.mem_append_left _ member)

theorem held_of_value {value : Value} (stored : view.value? name = some value) :
    view.held name = value.parts := by
  rw [held, stored]
  rfl

section Pools

def boundNumbers (view : View) : List (Payload Number) :=
  (bindingParts view.bindings).filterMap Part.number?

def boundTexts (view : View) : List (Payload Bytes) :=
  (bindingParts view.bindings).filterMap Part.text?

theorem numbers_perm (view : View) :
    (view.parts.filterMap Part.number?).Perm (view.constants.payloads ++ view.boundNumbers) := by
  have pooled : view.poolParts.filterMap Part.number? = view.constants.payloads := by
    rw [poolParts, List.filterMap_append, List.filterMap_map, List.filterMap_map]
    have own : view.constants.payloads.filterMap (Part.number? ∘ Part.number)
        = view.constants.payloads := List.filterMap_some
    have none : view.literals.payloads.filterMap (Part.number? ∘ Part.text) = [] :=
      List.filterMap_eq_nil_iff.mpr fun _ _ => rfl
    rw [own, none, List.append_nil]
  rw [parts, List.filterMap_append, pooled]
  exact List.perm_append_comm

theorem texts_perm (view : View) :
    (view.parts.filterMap Part.text?).Perm (view.literals.payloads ++ view.boundTexts) := by
  have pooled : view.poolParts.filterMap Part.text? = view.literals.payloads := by
    rw [poolParts, List.filterMap_append, List.filterMap_map, List.filterMap_map]
    have own : view.literals.payloads.filterMap (Part.text? ∘ Part.text)
        = view.literals.payloads := List.filterMap_some
    have none : view.constants.payloads.filterMap (Part.text? ∘ Part.number) = [] :=
      List.filterMap_eq_nil_iff.mpr fun _ _ => rfl
    rw [own, none, List.nil_append]
  rw [parts, List.filterMap_append, pooled]
  exact List.perm_append_comm

theorem number_mem {payload : Payload Number}
    (member : payload ∈ view.constants.payloads ++ view.boundNumbers) :
    .number payload ∈ view.parts :=
  Part.mem_numbers.mp (view.numbers_perm.mem_iff.mpr member)

theorem text_mem {payload : Payload Bytes}
    (member : payload ∈ view.literals.payloads ++ view.boundTexts) : .text payload ∈ view.parts :=
  Part.mem_texts.mp (view.texts_perm.mem_iff.mpr member)

end Pools

section Storing

theorem value?_store (view : View) (name : String) (value : Value) :
    (view.store name value).value? name = some value :=
  Session.lookup_setVariable name value view.bindings

theorem value?_store_ne {other : String} (apart : other ≠ name) (view : View) (value : Value) :
    (view.store name value).value? other = view.value? other :=
  Session.lookup_setVariable_ne apart value view.bindings

theorem others_store (view : View) (name : String) (value : Value) :
    (view.store name value).others name = view.others name :=
  congrArg (bindingParts · ++ view.poolParts)
    (Session.eraseP_setVariable name value view.bindings)

theorem parts_store (view : View) (name : String) (value : Value) :
    (view.store name value).parts.Perm (value.parts ++ view.others name) := by
  have around := (view.store name value).parts_around name
  rwa [held_of_value (view.value?_store name value), others_store] at around

theorem Settled.store (settled : view.Settled) {value : Value} {next : Mark}
    (known : Known next (value.parts ++ view.others name))
    (marked : ∀ part ∈ value.parts, part.mark.isSome) :
    ({ view.store name value with next } : View).Settled := by
  have around := view.parts_store name value
  refine ⟨known.mono fun part member => around.mem_iff.mp member, ?_,
    Session.nodup_setVariable name value settled.distinct⟩
  intro part member
  rcases List.mem_append.mp (around.mem_iff.mp member) with new | old
  · exact marked part new
  · exact settled.owned part (others_subset old)

theorem Settled.assign (settled : view.Settled) {value : Value}
    (known : Known view.next (value.parts ++ view.others name)) :
    (view.assign name value).Settled := by
  obtain ⟨placed, marked, _⟩ := known.placeAll
  rw [value.parts_place] at placed marked
  exact settled.store placed marked

theorem others_erase (distinct : (view.bindings.map Prod.fst).Nodup) (name : String) :
    (view.erase name).others name = view.others name := by
  have once : (view.erase name).bindings.eraseP (fun entry => entry.1 == name)
      = view.bindings.eraseP fun entry => entry.1 == name := by
    rw [← Session.filter_eq_eraseP name distinct]
    apply List.eraseP_of_forall_not
    intro entry member same
    exact bne_iff_ne.mp (List.mem_filter.mp member).2 (eq_of_beq same)
  exact congrArg (bindingParts · ++ view.poolParts) once

theorem held_erase (view : View) (name : String) : (view.erase name).held name = [] := by
  have gone : (view.erase name).value? name = none :=
    (lookup_filter name name view.bindings).trans (if_pos rfl)
  rw [held, gone]
  rfl

theorem parts_erase (distinct : (view.bindings.map Prod.fst).Nodup) (name : String) :
    (view.erase name).parts.Perm (view.others name) := by
  have around := (view.erase name).parts_around name
  rwa [held_erase, List.nil_append, others_erase distinct] at around

theorem Settled.erase (settled : view.Settled) (name : String) : (view.erase name).Settled := by
  have fewer : ∀ part ∈ (view.erase name).parts, part ∈ view.parts := fun part member =>
    others_subset ((parts_erase settled.distinct name).mem_iff.mp member)
  exact ⟨settled.known.mono fewer, fun part member => settled.owned part (fewer part member),
    settled.distinct.sublist (List.filter_sublist.map Prod.fst)⟩

end Storing

end View

namespace Session

def view (session : Session) : View where
  bindings := session.bindings.map (Prod.map id session.heap.load)
  constants := session.constants
  literals := session.literals
  next := session.heap.next

/-- The session holds the handles of a view, and its heap the payloads. -/
structure Shows (session : Session) (view : View) : Prop where
  bindings : session.bindings = view.bindings.map (Prod.map id (Value.visit Visit.handles))
  constants : session.machine.constants = view.constants.map Payload.handle
  literals : session.machine.literals = view.literals.map Payload.handle
  next : session.heap.next = view.next
  holds : session.heap.Holds view.parts
  settled : view.Settled

namespace Shows

variable {session : Session} {view : View} {name : String}

theorem load (shows : session.Shows view) {value : Value}
    (within : ∀ part ∈ value.parts, part ∈ view.parts) :
    session.heap.load (value.visit Visit.handles) = value :=
  shows.holds.load fun part member =>
    ⟨within part member, shows.settled.owned part (within part member)⟩

theorem stored? (shows : session.Shows view) (name : String) :
    session.stored? name = (view.value? name).map (Value.visit Visit.handles) := by
  rw [Session.stored?, shows.bindings]
  exact lookup_map _ name view.bindings

theorem value? (shows : session.Shows view) (name : String) :
    session.value? name = view.value? name := by
  rw [Session.value?, shows.stored?]
  cases stored : view.value? name with
  | none => rfl
  | some value =>
      refine congrArg some (shows.load fun part member => ?_)
      rw [← View.held_of_value stored] at member
      exact View.held_subset member

theorem held (shows : session.Shows view) (name : String) :
    session.held name = (view.held name).map (Part.visit Visit.handles) := by
  rw [Session.held, View.held, shows.stored?]
  cases view.value? name with
  | none => rfl
  | some value => exact value.parts_visit Visit.handles

theorem numbers_iff (heap : Heap) (view : View) :
    heap.numbers.Holds (view.parts.filterMap Part.number?)
      ↔ heap.numbers.Holds (view.constants.payloads ++ view.boundNumbers) :=
  ⟨fun holds => holds.perm view.numbers_perm, fun holds => holds.perm view.numbers_perm.symm⟩

theorem texts_iff (heap : Heap) (view : View) :
    heap.texts.Holds (view.parts.filterMap Part.text?)
      ↔ heap.texts.Holds (view.literals.payloads ++ view.boundTexts) :=
  ⟨fun holds => holds.perm view.texts_perm, fun holds => holds.perm view.texts_perm.symm⟩

theorem constants_eq (shows : session.Shows view) : session.constants = view.constants := by
  rw [Session.constants, shows.constants]
  refine Pool.load_handles ((numbers_iff _ view).mp shows.holds.numbers) fun payload member => ?_
  exact shows.settled.owned (.number payload) (View.number_mem (List.mem_append_left _ member))

theorem literals_eq (shows : session.Shows view) : session.literals = view.literals := by
  rw [Session.literals, shows.literals]
  refine Pool.load_handles ((texts_iff _ view).mp shows.holds.texts) fun payload member => ?_
  exact shows.settled.owned (.text payload) (View.text_mem (List.mem_append_left _ member))

theorem view_eq (shows : session.Shows view) : session.view = view := by
  have loaded : session.bindings.map (Prod.map id session.heap.load) = view.bindings := by
    rw [shows.bindings, List.map_map]
    refine (List.map_congr_left fun entry member => ?_).trans (List.map_id _)
    refine Prod.ext rfl (shows.load fun part within => ?_)
    exact List.mem_append_left _ (List.mem_flatMap.mpr ⟨entry, member, within⟩)
  rw [Session.view, loaded, shows.constants_eq, shows.literals_eq, shows.next]

theorem links?_eq (shows : session.Shows view) (part : Part) (protection : Protection) :
    session.links? (part.value protection)
      = some ((part.id?.map (Part.owners view.parts)).getD 0) := by
  cases part with
  | number payload =>
      cases owned : payload.mark with
      | none => simp [Session.links?, Part.value, Part.id?, owned]
      | some mark =>
          have count := shows.holds.links_eq (.number mark)
          rw [Heap.links] at count
          simp [Session.links?, Part.value, Part.id?, owned, count]
  | text payload =>
      cases owned : payload.mark with
      | none => simp [Session.links?, Part.value, Part.id?, owned]
      | some mark =>
          have count := shows.holds.links_eq (.text mark)
          rw [Heap.links] at count
          simp [Session.links?, Part.value, Part.id?, owned, count]

theorem beside (shows : session.Shows view) {machine : Machine} {next : Mark}
    (constants : machine.constants = session.machine.constants)
    (literals : machine.literals = session.machine.literals) (later : view.next ≤ next) :
    ({ session with machine, heap := { session.heap with next } } : Session).Shows
      { view with next } where
  bindings := shows.bindings
  constants := constants.trans shows.constants
  literals := literals.trans shows.literals
  next := rfl
  holds := ⟨shows.holds.numbers, shows.holds.texts⟩
  settled := ⟨shows.settled.known.weaken later, shows.settled.owned, shows.settled.distinct⟩

theorem assign (shows : session.Shows view) {value : Value}
    (known : Known view.next (value.parts ++ view.parts)) :
    (session.assign name value).Shows (view.assign name value) := by
  obtain ⟨placed, marked, _⟩ := known.placeAll
  rw [value.parts_place] at placed marked
  have around := view.parts_around name
  have fewer : Known view.next (value.parts ++ view.others name) := known.mono fun part member =>
    List.mem_append.mpr ((List.mem_append.mp member).imp_right View.others_subset)
  refine ⟨?_, shows.constants, shows.literals, ?_, ?_, shows.settled.assign fewer⟩
  · have taken : (session.assign name value).bindings
        = setVariable name ((value.place session.heap.next).1.visit Visit.handles)
          session.bindings := rfl
    rw [taken, shows.next, shows.bindings]
    exact (setVariable_map (Value.visit Visit.handles) name _ view.bindings).symm
  · have next : (session.assign name value).heap.next = (value.place session.heap.next).2 :=
      Heap.releaseAll_next _ _
    rw [next, shows.next]
    rfl
  · -- What is stored is held before the rest is let go of.
    have taken := shows.holds.holdAll marked placed
    have apart := taken.perm ((around.append_left _).trans (List.perm_append_comm_assoc _ _ _))
    have begun : (session.heap.take value).2.Holds (view.held name
        ++ ((value.place view.next).1.parts ++ view.others name)) := by
      rw [← shows.next] at apart ⊢
      exact ⟨apart.numbers, apart.texts⟩
    have left := begun.releaseAll fun part member => shows.settled.owned part (View.held_subset member)
    rw [← Heap.releaseAll_handles, ← shows.held] at left
    exact left.perm (view.parts_store name _).symm

theorem erase (shows : session.Shows view) (name : String) :
    (session.erase name).Shows (view.erase name) where
  bindings := by
    rw [Session.erase, View.erase, shows.bindings, List.filter_map]
    rfl
  constants := shows.constants
  literals := shows.literals
  next := (Heap.releaseAll_next _ _).trans shows.next
  holds := by
    have begun := shows.holds.perm (view.parts_around name)
    have left := begun.releaseAll fun part member => shows.settled.owned part (View.held_subset member)
    rw [← Heap.releaseAll_handles, ← shows.held] at left
    exact left.perm (View.parts_erase shows.settled.distinct name).symm
  settled := shows.settled.erase name

theorem start (config : Config) (host : Host) :
    (Session.start config host).Shows
      { bindings := []
        constants := Constants.new config.constantChunk
        literals := Literals.new config.literalChunk
        next := Constants.preloaded.length } := by
  have standing : View.parts
        { bindings := []
          constants := Constants.new config.constantChunk
          literals := Literals.new config.literalChunk
          next := Constants.preloaded.length }
      = Constants.standing.map Part.number ++ Literals.standing.map Part.text := rfl
  have low : ∀ id ∈ (Constants.standing.map Part.number
      ++ Literals.standing.map Part.text).map Part.id?,
        (id.map PayloadId.mark).any (· < Constants.preloaded.length) = true := by decide
  have marked : ∀ part ∈ Constants.standing.map Part.number ++ Literals.standing.map Part.text,
      part.mark.any (· < Constants.preloaded.length) = true := by
    intro part member
    rw [part.mark_eq]
    exact low part.id? (List.mem_map_of_mem member)
  have owned : ∀ part ∈ Constants.standing.map Part.number ++ Literals.standing.map Part.text,
      part.mark.isSome := fun part member => Option.isSome_of_any (marked part member)
  have known : Known Constants.preloaded.length
      (Constants.standing.map Part.number ++ Literals.standing.map Part.text) := by
    refine ⟨?_, ?_⟩
    · intro part member mark tag
      simpa [tag] using marked part member
    · intro one member other also id first second
      have distinct : ((Constants.standing.map Part.number
          ++ Literals.standing.map Part.text).map Part.id?).Nodup := by decide
      exact List.inj_on_of_nodup_map distinct member also (first.trans second.symm)
  refine ⟨rfl, rfl, rfl, Heap.holdAll_next _ _, ?_, ⟨?_, ?_, List.nodup_nil⟩⟩
  · rw [standing]
    have empty : Heap.Holds { numbers := .empty, texts := .empty, next := Constants.preloaded.length }
        [] := ⟨.empty, .empty⟩
    have held := empty.holdAll owned (by rw [List.append_nil]; exact known)
    rw [List.append_nil] at held
    exact held
  · exact known
  · exact owned

end Shows

end Session

end Calculator
