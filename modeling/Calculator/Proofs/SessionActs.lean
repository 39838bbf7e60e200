import Calculator.Proofs.TextWrites

/-!
# Acts on a session

An act changes one variable or one slot of a pool. What it hands in has the marks that the session has
given out, and so has what a copy or a builtin returns; so one mark means one payload in whatever is
stored. After any act the heap holds what is in view, and along it the places that were there and those
that it adds are the places that there are and those that it removed.
-/

namespace Calculator

/-- A payload that a pool is handed is marked first. -/
def Pool.Call.place {α : Type} (next : Mark) :
    Pool.Call (Payload α) → Pool.Call (Payload α) × Mark
  | .intern payload => (.intern (payload.place next).1, (payload.place next).2)
  | call => (call, next)

namespace Session

/-- Stores a result in a variable, where there are both. -/
def deliver (session : Session) (target : Option String) (result : Option Value) : Session :=
  match target, result with
  | some name, some value => session.assign name value
  | _, _ => session

end Session

/-- What can be done with values and pools. -/
inductive Act where
  | assign (name : String) (value : Value)
  | erase (name : String)
  | setByte (name : String) (index : Nat) (byte : UInt8)
  | write (name : String) (around : Payload Bytes → Value) (text : Payload Bytes) (content : Bytes)
  | alter (change : Copy.Change) (name : String)
  | alterAside (change : Copy.Change) (destination : Value) (target : Option String)
  | builtin (name : String) (arguments : List Value) (target : Option String)
  | onConstants (call : Pool.Call (Payload Number))
  | onLiterals (call : Pool.Call (Payload Bytes))
  | zeros (bounds : List Bounds)
  | elsewhere (blocks : NamedBlocks) (files : Files)

def Copy.Change.source : Copy.Change → Value
  | copy source _ _ _ => source
  | fill _ _ _ => .null

namespace Act

def perform (act : Act) (session : Session) : Session :=
  match act with
  | assign name value => session.assign name value
  | erase name => session.erase name
  | setByte name index byte => (session.setTextByte name index byte).2
  | write name around text content => session.writeText name around text content
  | alter change name =>
      match session.value? name with
      | some destination => (session.alter change destination (some name)).2.2
      | none => session
  | alterAside change destination target =>
      let (_, left, reached) := session.alter change destination none
      reached.deliver target (some left)
  | builtin name arguments target =>
      let (result, reached) := session.call name arguments
      reached.deliver target result.toOption
  | onConstants (.intern payload) => (session.addConstant payload).2
  | onConstants (.link index) => (session.linkConstant index).toOption.getD session
  | onConstants (.release index) => (session.releaseConstant index).toOption.getD session
  | onLiterals (.intern payload) => (session.addLiteral payload).2
  | onLiterals (.link index) => (session.linkLiteral index).toOption.getD session
  | onLiterals (.release index) => (session.releaseLiteral index).toOption.getD session
  | zeros bounds =>
      match session.zeroMatrix? bounds with
      | .ok (some (_, reached)) => reached
      | _ => session
  | elsewhere blocks files =>
      { session with machine := { session.machine with blocks, files } }

def performAll (acts : List Act) (session : Session) : Session :=
  acts.foldl (fun reached act => act.perform reached) session

def states (acts : List Act) (session : Session) : List Session :=
  acts.scanl (fun reached act => act.perform reached) session

/-- The variable that an act may change. -/
def target? : Act → Option String
  | assign name _ | erase name | setByte name _ _ | write name _ _ _ | alter _ name => some name
  | alterAside _ _ target | builtin _ _ target => target
  | _ => none

def onPool : Act → Bool
  | onConstants _ | onLiterals _ => true
  | _ => false

/-- The places in the values that an act hands in. -/
def given : Act → List Part
  | assign _ value => value.parts
  | alter change _ => change.source.parts
  | alterAside change destination _ => change.source.parts ++ destination.parts
  | builtin _ arguments _ => Value.partsOfList arguments
  | onConstants call => call.gained.map .number
  | onLiterals call => call.gained.map .text
  | _ => []

/-- A text is written at one place of its variable. -/
def Aims : Act → Session → Prop
  | write name around text _, session =>
      session.value? name = some (around text)
        ∧ ∃ front back, ∀ own, (around own).parts = front ++ .text own :: back
  | _, _ => True

/-- Marks that an act hands in are those that the session gave to the same payloads. -/
structure Fits (act : Act) (session : Session) : Prop where
  known : Known session.heap.next (act.given ++ session.parts)
  aims : act.Aims session

def Admitted : List Act → Session → Prop
  | [], _ => True
  | act :: rest, session => act.Fits session ∧ Admitted rest (act.perform session)

/-- The places that an act adds. -/
def gained (act : Act) (session : Session) : List Part :=
  match act with
  | onConstants call => (call.place session.heap.next).1.gained.map .number
  | onLiterals call => (call.place session.heap.next).1.gained.map .text
  | _ => (act.target?.map (act.perform session).view.held).getD []

/-- The places that an act removes. -/
def lost (act : Act) (session : Session) : List Part :=
  match act with
  | onConstants call => ((call.place session.heap.next).1.lost session.constants).map .number
  | onLiterals call => ((call.place session.heap.next).1.lost session.literals).map .text
  | _ => (act.target?.map session.view.held).getD []

def gainedAll : List Act → Session → List Part
  | [], _ => []
  | act :: rest, session => act.gained session ++ gainedAll rest (act.perform session)

def lostAll : List Act → Session → List Part
  | [], _ => []
  | act :: rest, session => act.lost session ++ lostAll rest (act.perform session)

end Act

namespace View

/-- What an act does to a view, if it is not on a pool. -/
structure Touches (view : View) (target : Option String) (after : View) : Prop where
  constants : after.constants = view.constants
  literals : after.literals = view.literals
  others : ∀ name, target = some name → after.others name = view.others name
  values : ∀ name, target ≠ some name → after.value? name = view.value? name
  still : target = none → after.parts = view.parts

namespace Touches

theorem aside (view : View) (target : Option String) (next : Mark) :
    view.Touches target { view with next } :=
  ⟨rfl, rfl, fun _ _ => rfl, fun _ _ => rfl, fun _ => rfl⟩

theorem refl (view : View) (target : Option String) : view.Touches target view :=
  aside view target view.next

theorem store (view : View) (name : String) (value : Value) (next : Mark) :
    view.Touches (some name) { view.store name value with next } where
  constants := rfl
  literals := rfl
  others := by
    rintro _ ⟨⟩
    exact others_store view name value
  values := fun _ apart => value?_store_ne (fun same => apart (congrArg some same.symm)) view value
  still := nofun

theorem erase {view : View} (settled : view.Settled) (name : String) :
    view.Touches (some name) (view.erase name) where
  constants := rfl
  literals := rfl
  others := by
    rintro _ ⟨⟩
    exact others_erase settled.distinct name
  values := by
    intro other apart
    have kept := lookup_filter name other view.bindings
    rwa [if_neg fun same => apart (congrArg some same.symm)] at kept
  still := nofun

variable {view after : View} {target : Option String}

theorem balance (touches : view.Touches target after) :
    (after.parts ++ (target.map view.held).getD []).Perm
      (view.parts ++ (target.map after.held).getD []) := by
  cases target with
  | none => exact List.Perm.of_eq (congrArg (· ++ []) (touches.still rfl))
  | some name =>
      have before := view.parts_around name
      have now := after.parts_around name
      rw [touches.others name rfl] at now
      exact calc
        List.Perm (after.parts ++ view.held name)
            (after.held name ++ view.others name ++ view.held name) := now.append_right _
        List.Perm _ (view.held name ++ (after.held name ++ view.others name)) :=
          List.perm_append_comm
        List.Perm _ (view.held name ++ (view.others name ++ after.held name)) :=
          List.perm_append_comm.append_left _
        List.Perm _ (view.held name ++ view.others name ++ after.held name) :=
          List.Perm.of_eq (List.append_assoc _ _ _).symm
        List.Perm _ (view.parts ++ after.held name) := before.symm.append_right _

end Touches

end View

def Machine.SamePools (before after : Machine) : Prop :=
  after.constants = before.constants ∧ after.literals = before.literals

theorem Machine.Moves.samePools {asked : Option String} {before after : Machine}
    (moves : before.Moves asked after) : before.SamePools after := by
  rw [SamePools, moves.1]
  exact ⟨rfl, rfl⟩

namespace Copy.Change

theorem answered_returns (change : Change) (exclusive : Bool) (destination : Value) :
    Effect.Upholds (fun _ => True) (change.answered exclusive destination)
      (Returns change.source destination exclusive) := by
  cases change with
  | copy source start count position => exact copy_returns start count position
  | fill byte count start => exact fill_returns byte count start

theorem left_returns (change : Change) (exclusive : Bool) (destination : Value) (machine : Machine) :
    Returns change.source destination exclusive
      (change.program exclusive { destination, machine }).2.destination :=
  left_holds .same (change.answered_returns exclusive destination machine trivial).2

theorem program_pools (change : Change) (exclusive : Bool) (destination : Value)
    (machine : Machine) :
    machine.SamePools (change.program exclusive { destination, machine }).2.machine := by
  have moved := Machine.Moves.samePools (change.answered_moves exclusive destination machine)
  rwa [answered_run] at moved

end Copy.Change

namespace Session.Shows

variable {session : Session} {view : View} {name : String}

theorem withMachine (shows : session.Shows view) {machine : Machine}
    (pools : session.machine.SamePools machine) :
    ({ session with machine } : Session).Shows view :=
  ⟨shows.bindings, pools.1.trans shows.constants, pools.2.trans shows.literals, shows.next, shows.holds,
    shows.settled⟩

theorem putBack (shows : session.Shows view) {value : Value}
    (known : Known view.next (value.parts ++ view.parts)) :
    (session.putBack name value).Shows (view.assign name value) := by
  obtain ⟨data, protection⟩ := value
  cases data with
  | text text =>
      have written : ({ session with
            heap := session.heap.writeText text text.content } : Session).Shows view := by
        rw [Heap.writeText]
        cases marked : text.mark with
        | none => exact shows
        | some mark =>
            refine ⟨shows.bindings, shows.constants, shows.literals, shows.next, ?_, shows.settled⟩
            refine ⟨shows.holds.numbers, shows.holds.texts.write_same ?_⟩
            intro other member tag
            have within := List.mem_append_right (Value.parts ⟨.text text, protection⟩)
              (Part.mem_texts.mp member)
            have own : .text text ∈ Value.parts ⟨.text text, protection⟩ ++ view.parts :=
              List.mem_append_left _ (List.mem_singleton_self _)
            exact congrArg Payload.content (known.text_eq within own tag marked)
      exact written.assign known
  | _ => exact shows.assign known

theorem deliver (shows : session.Shows view) (target : Option String) {result : Option Value}
    (known : ∀ value, result = some value → Known view.next (value.parts ++ view.parts)) :
    ∃ after, (session.deliver target result).Shows after ∧ view.Touches target after := by
  cases target with
  | none => exact ⟨view, shows, .refl view none⟩
  | some name =>
      cases result with
      | none => exact ⟨view, shows, .refl view (some name)⟩
      | some value => exact ⟨_, shows.assign (known value rfl), .store view name _ _⟩

theorem alter (shows : session.Shows view) {change : Copy.Change} {destination : Value}
    (stored : view.value? name = some destination)
    (known : Known view.next (change.source.parts ++ view.parts)) :
    ∃ after, (session.alter change destination (some name)).2.2.Shows after
      ∧ view.Touches (some name) after := by
  have pools := change.program_pools (session.isExclusive destination true) destination
    session.machine
  have left := change.left_returns (session.isExclusive destination true) destination session.machine
  have within : ∀ part ∈ destination.parts, part ∈ view.parts := by
    rw [← View.held_of_value stored]
    exact fun part member => View.held_subset member
  rcases left.drawn_or_written with drawn | ⟨only, text, content, held, written⟩
  · refine ⟨_, (shows.withMachine pools).putBack (known.drawn ?_), .store view name _ _⟩
    intro part member
    rcases List.mem_append.mp member with new | old
    · refine (drawn part new).imp_right fun given => ?_
      exact List.mem_append.mpr ((List.mem_append.mp given).imp_right (within part))
    · exact .inr (List.mem_append_right _ old)
  · obtain ⟨data, protection⟩ := destination
    cases held
    rw [shows.isExclusive_eq] at only
    have taken := @putBack_text _ view name text protection (shows.withMachine pools) stored content
    rw [only, if_pos rfl] at taken
    refine ⟨view.rewrite name (fun own => ⟨.text own, protection⟩) text content, ?_,
      .store view name _ _⟩
    rw [← show _ = (⟨.text { text with content }, protection⟩ : Value) from written] at taken
    exact taken

theorem alterAside (shows : session.Shows view) {change : Copy.Change} {destination : Value}
    (target : Option String)
    (known : Known view.next ((change.source.parts ++ destination.parts) ++ view.parts)) :
    ∃ after, ((session.alter change destination none).2.2.deliver target
        (some (session.alter change destination none).2.1)).Shows after
      ∧ view.Touches target after := by
  have pools := change.program_pools (session.isExclusive destination false) destination
    session.machine
  have left := change.left_returns (session.isExclusive destination false) destination session.machine
  refine (shows.withMachine pools).deliver target ?_
  rintro _ ⟨⟩
  refine left.known known (fun part member => List.mem_append_left _ member)
    (fun part member => List.mem_append_right _ member) ?_
  intro only text held id marked other member same
  obtain ⟨mark, tag, rfl⟩ := Option.map_eq_some_iff.mp marked
  obtain ⟨data, protection⟩ := destination
  cases held
  have count : session.heap.texts.links mark = Part.owners view.parts (.text mark) :=
    shows.holds.links_eq (.text mark)
  simp only [isExclusive, tag, count, Bool.false_eq_true, if_false, decide_eq_true_eq,
    Nat.le_zero] at only
  rw [Part.owners, List.countP_eq_zero] at only
  exact only other member (beq_iff_eq.mpr same)

theorem builtin (shows : session.Shows view) {builtin : String} {arguments : List Value}
    (target : Option String) (known : Known view.next (Value.partsOfList arguments ++ view.parts)) :
    ∃ after, ((session.call builtin arguments).2.deliver target
        (session.call builtin arguments).1.toOption).Shows after ∧ view.Touches target after := by
  have pools := (Registry.standard_call_moves builtin arguments session.machine session.machine
    rfl).1.samePools
  have draws := (Registry.standard_call_draws builtin arguments session.machine trivial).2
  refine (shows.withMachine pools).deliver target ?_
  intro value answered
  have returned : (Registry.standard.call builtin arguments session.machine).1 = .ok value := by
    cases result : (Registry.standard.call builtin arguments session.machine).1 with
    | error reason =>
        rw [show (session.call builtin arguments).1 = _ from result] at answered
        cases answered
    | ok other =>
        rw [show (session.call builtin arguments).1 = _ from result] at answered
        cases answered
        rfl
  apply known.drawn
  intro part member
  rcases List.mem_append.mp member with new | old
  · exact (draws value returned part new).imp_right (List.mem_append_left _)
  · exact .inr (List.mem_append_right _ old)

end Session.Shows

section Pools

theorem Pool.Call.gained_place (next : Mark) (call : Pool.Call (Payload Number)) :
    Part.placeAll next (call.gained.map Part.number)
      = ((call.place next).1.gained.map Part.number, (call.place next).2) := by
  cases call <;> rfl

theorem Pool.Call.gainedTexts_place (next : Mark) (call : Pool.Call (Payload Bytes)) :
    Part.placeAll next (call.gained.map Part.text)
      = ((call.place next).1.gained.map Part.text, (call.place next).2) := by
  cases call <;> rfl

theorem View.Settled.pooled {view after : View} (settled : view.Settled)
    (bindings : after.bindings = view.bindings) {placed lost : List Part}
    (known : Known after.next (placed ++ view.parts)) (marked : ∀ part ∈ placed, part.mark.isSome)
    (balance : (after.parts ++ lost).Perm (view.parts ++ placed)) : after.Settled := by
  have each : ∀ part ∈ after.parts, part ∈ placed ++ view.parts := by
    intro part member
    have within := balance.mem_iff.mp (List.mem_append_left lost member)
    exact List.mem_append.mpr (List.mem_append.mp within).symm
  refine ⟨known.mono each, ?_, ?_⟩
  · intro part member
    rcases List.mem_append.mp (each part member) with new | old
    · exact marked part new
    · exact settled.owned part old
  · rw [bindings]
    exact settled.distinct

variable {view : View}

theorem View.constants_balance (view : View) (call : Pool.Call (Payload Number)) (next : Mark) :
    (({ view with constants := view.constants.perform call, next } : View).parts
        ++ (call.lost view.constants).map Part.number).Perm
      (view.parts ++ call.gained.map Part.number) := by
  have slots := (view.constants.payloads_perform call).map Part.number
  rw [List.map_append, List.map_append] at slots
  have back (front mid behind more : List Part) :
      List.Perm (front ++ (mid ++ behind) ++ more) (front ++ behind ++ (mid ++ more)) := by
    simp only [List.append_assoc]
    exact (List.perm_append_comm_assoc mid behind more).append_left front
  exact ((back _ _ _ _).trans (slots.append_left _)).trans (back _ _ _ _).symm

theorem View.literals_balance (view : View) (call : Pool.Call (Payload Bytes)) (next : Mark) :
    (({ view with literals := view.literals.perform call, next } : View).parts
        ++ (call.lost view.literals).map Part.text).Perm
      (view.parts ++ call.gained.map Part.text) := by
  have slots := (view.literals.payloads_perform call).map Part.text
  rw [List.map_append, List.map_append] at slots
  have back (front mid behind more : List Part) :
      List.Perm (front ++ (mid ++ behind) ++ more) (front ++ mid ++ (behind ++ more)) := by
    simp only [List.append_assoc]
    exact List.Perm.refl _
  exact ((back _ _ _ _).trans (slots.append_left _)).trans (back _ _ _ _).symm

end Pools

namespace Act

variable {session : Session} {view : View}

theorem perform_onConstants (call : Pool.Call (Payload Number)) (session : Session) :
    (onConstants call).perform session
      = (let placed := call.place session.heap.next
        let (constants, numbers) :=
          session.machine.constants.performStored session.heap.numbers placed.1
        { session with
          machine := { session.machine with constants }
          heap := { session.heap with numbers, next := placed.2 } }) := by
  cases call with
  | intern payload => rfl
  | link index =>
      dsimp only [perform, Session.linkConstant, Pool.Call.place, Pool.performStored]
      cases session.machine.constants.link index <;> rfl
  | release index =>
      dsimp only [perform, Session.releaseConstant, Pool.Call.place, Pool.performStored]
      cases session.machine.constants.releaseStored session.heap.numbers index <;> rfl

theorem perform_onLiterals (call : Pool.Call (Payload Bytes)) (session : Session) :
    (onLiterals call).perform session
      = (let placed := call.place session.heap.next
        let (literals, texts) :=
          session.machine.literals.performStored session.heap.texts placed.1
        { session with
          machine := { session.machine with literals }
          heap := { session.heap with texts, next := placed.2 } }) := by
  cases call with
  | intern payload => rfl
  | link index =>
      dsimp only [perform, Session.linkLiteral, Pool.Call.place, Pool.performStored]
      cases session.machine.literals.link index <;> rfl
  | release index =>
      dsimp only [perform, Session.releaseLiteral, Pool.Call.place, Pool.performStored]
      cases session.machine.literals.releaseStored session.heap.texts index <;> rfl

theorem onConstants_shows (shows : session.Shows view) {call : Pool.Call (Payload Number)}
    (known : Known view.next (call.gained.map Part.number ++ view.parts)) :
    ((onConstants call).perform session).Shows
      { view with
        constants := view.constants.perform (call.place view.next).1
        next := (call.place view.next).2 } := by
  obtain ⟨placed, marked, _⟩ := known.placeAll
  rw [Pool.Call.gained_place] at placed marked
  have stored := Pool.performStored_eq ((Session.Shows.numbers_iff _ view).mp shows.holds.numbers)
    (fun payload member =>
      shows.settled.owned (.number payload) (View.number_mem (List.mem_append_left _ member)))
    (call.place view.next).1 ?_
  · rw [perform_onConstants, shows.next, shows.constants]
    refine ⟨shows.bindings, stored.1, shows.literals, rfl, ⟨?_, ?_⟩, ?_⟩
    · exact (Session.Shows.numbers_iff _ _).mpr stored.2
    · exact (Session.Shows.texts_iff _ _).mpr ((Session.Shows.texts_iff _ view).mp shows.holds.texts)
    · exact shows.settled.pooled rfl placed marked (view.constants_balance _ _)
  · intro payload member
    have listed := List.mem_map_of_mem (f := Part.number) member
    obtain ⟨mark, owned⟩ := Option.isSome_iff_exists.mp (marked _ listed)
    refine ⟨marked _ listed, fun other within same => ?_⟩
    have equal := placed.number_eq (List.mem_append_right _ (View.number_mem within))
      (List.mem_append_left _ listed) (same.trans owned) owned
    exact congrArg Payload.content equal

theorem onLiterals_shows (shows : session.Shows view) {call : Pool.Call (Payload Bytes)}
    (known : Known view.next (call.gained.map Part.text ++ view.parts)) :
    ((onLiterals call).perform session).Shows
      { view with
        literals := view.literals.perform (call.place view.next).1
        next := (call.place view.next).2 } := by
  obtain ⟨placed, marked, _⟩ := known.placeAll
  rw [Pool.Call.gainedTexts_place] at placed marked
  have stored := Pool.performStored_eq ((Session.Shows.texts_iff _ view).mp shows.holds.texts)
    (fun payload member =>
      shows.settled.owned (.text payload) (View.text_mem (List.mem_append_left _ member)))
    (call.place view.next).1 ?_
  · rw [perform_onLiterals, shows.next, shows.literals]
    refine ⟨shows.bindings, shows.constants, stored.1, rfl, ⟨?_, ?_⟩, ?_⟩
    · exact (Session.Shows.numbers_iff _ _).mpr
        ((Session.Shows.numbers_iff _ view).mp shows.holds.numbers)
    · exact (Session.Shows.texts_iff _ _).mpr stored.2
    · exact shows.settled.pooled rfl placed marked (view.literals_balance _ _)
  · intro payload member
    have listed := List.mem_map_of_mem (f := Part.text) member
    obtain ⟨mark, owned⟩ := Option.isSome_iff_exists.mp (marked _ listed)
    refine ⟨marked _ listed, fun other within same => ?_⟩
    have equal := placed.text_eq (List.mem_append_right _ (View.text_mem within))
      (List.mem_append_left _ listed) (same.trans owned) owned
    exact congrArg Payload.content equal

theorem perform_touches (shows : session.Shows view) {act : Act} (fits : act.Fits session)
    (off : act.onPool = false) :
    ∃ after, (act.perform session).Shows after ∧ view.Touches act.target? after := by
  have known := fits.known
  rw [shows.next, Session.parts, shows.view_eq] at known
  cases act with
  | assign name value => exact ⟨_, shows.assign known, .store view name _ _⟩
  | erase name => exact ⟨_, shows.erase name, .erase shows.settled name⟩
  | setByte name index byte =>
      by_cases held : ∃ text protection, view.value? name = some ⟨.text text, protection⟩
      · obtain ⟨text, protection, stored⟩ := held
        exact ⟨_, (shows.setTextByte stored index byte).2, .store view name _ _⟩
      · have same := shows.setTextByte_of_no_text
          (fun text protection stored => held ⟨text, protection, stored⟩) index byte
        dsimp only [perform]
        rw [same]
        exact ⟨view, shows, .refl view (some name)⟩
  | write name around text content =>
      obtain ⟨stored, front, back, hole⟩ := fits.aims
      rw [shows.value?] at stored
      exact ⟨_, shows.writeText stored hole rfl content, .store view name _ _⟩
  | alter change name =>
      dsimp only [perform]
      rw [shows.value?]
      cases stored : view.value? name with
      | none => exact ⟨view, shows, .refl view (some name)⟩
      | some destination => exact shows.alter stored known
  | alterAside change destination target => exact shows.alterAside target known
  | builtin name arguments target => exact shows.builtin target known
  | onConstants call => cases off
  | onLiterals call => cases off
  | zeros bounds =>
      dsimp only [perform, Session.zeroMatrix?]
      rcases Matrix.zeroed? bounds (Value.place session.heap.next (Value.ofInt 0)).1 with
        reason | _ | slots
      · exact ⟨view, shows, .refl view none⟩
      · exact ⟨view, shows, .refl view none⟩
      · refine ⟨_, shows.beside rfl rfl ?_, .aside view none (session.heap.next + 1)⟩
        exact shows.next ▸ Nat.le_succ _
  | elsewhere blocks files => exact ⟨view, shows.withMachine ⟨rfl, rfl⟩, .refl view none⟩

theorem perform_shows (shows : session.Shows view) {act : Act} (fits : act.Fits session) :
    ∃ after, (act.perform session).Shows after := by
  cases off : act.onPool with
  | true =>
      have known := fits.known
      rw [shows.next, Session.parts, shows.view_eq] at known
      cases act with
      | onConstants call => exact ⟨_, onConstants_shows shows known⟩
      | onLiterals call => exact ⟨_, onLiterals_shows shows known⟩
      | _ => cases off
  | false =>
      obtain ⟨after, reached, _⟩ := perform_touches shows fits off
      exact ⟨after, reached⟩

/-- Along any act, what was there and what is added is what there is and what was removed. -/
theorem perform_balance (shows : session.Shows view) {act : Act} (fits : act.Fits session) :
    ((act.perform session).parts ++ act.lost session).Perm
      (session.parts ++ act.gained session) := by
  cases off : act.onPool with
  | true =>
      have known := fits.known
      rw [shows.next, Session.parts, shows.view_eq] at known
      cases act with
      | onConstants call =>
          have after := onConstants_shows shows known
          rw [Session.parts, after.view_eq, Session.parts, shows.view_eq, lost, gained,
            shows.constants_eq, shows.next]
          exact view.constants_balance _ _
      | onLiterals call =>
          have after := onLiterals_shows shows known
          rw [Session.parts, after.view_eq, Session.parts, shows.view_eq, lost, gained,
            shows.literals_eq, shows.next]
          exact view.literals_balance _ _
      | _ => cases off
  | false =>
      obtain ⟨after, reached, touches⟩ := perform_touches shows fits off
      have balance := touches.balance
      rw [← reached.view_eq, ← shows.view_eq] at balance
      cases act with
      | onConstants call => cases off
      | onLiterals call => cases off
      | _ => exact balance

/-- Payloads that are new, or that the session holds at the time, can be handed in. -/
theorem Admitted.of_drawn (shows : session.Shows view) {act : Act} {rest : List Act}
    (each : ∀ part ∈ act.given, part.mark = none ∨ part ∈ session.parts)
    (aims : act.Aims session)
    (later : ∀ after, (act.perform session).Shows after → Admitted rest (act.perform session)) :
    Admitted (act :: rest) session := by
  have fits : act.Fits session := by
    refine ⟨?_, aims⟩
    rw [shows.next, Session.parts, shows.view_eq]
    rw [Session.parts, shows.view_eq] at each
    apply shows.settled.known.drawn
    intro part member
    exact (List.mem_append.mp member).elim (each part) .inr
  obtain ⟨after, reached⟩ := perform_shows shows fits
  exact ⟨fits, later after reached⟩

theorem performAll_shows (acts : List Act) (shows : session.Shows view)
    (admitted : Admitted acts session) : ∃ after, (performAll acts session).Shows after := by
  induction acts generalizing session view with
  | nil => exact ⟨view, shows⟩
  | cons act rest ih =>
      obtain ⟨after, reached⟩ := perform_shows shows admitted.1
      exact ih reached admitted.2

/-- Over a run, places are only those that were added and have not been removed. -/
theorem performAll_balance (acts : List Act) (shows : session.Shows view)
    (admitted : Admitted acts session) :
    ((performAll acts session).parts ++ lostAll acts session).Perm
      (session.parts ++ gainedAll acts session) := by
  induction acts generalizing session view with
  | nil => exact List.Perm.refl _
  | cons act rest ih =>
      obtain ⟨after, reached⟩ := perform_shows shows admitted.1
      have first := perform_balance shows admitted.1
      have later := ih reached admitted.2
      have swap (front mid back : List Part) :
          List.Perm (front ++ (mid ++ back)) (front ++ back ++ mid) := by
        rw [List.append_assoc]
        exact List.perm_append_comm.append_left front
      exact calc
        List.Perm
            ((performAll rest (act.perform session)).parts
              ++ (act.lost session ++ lostAll rest (act.perform session)))
            ((performAll rest (act.perform session)).parts ++ lostAll rest (act.perform session)
              ++ act.lost session) := swap _ _ _
        List.Perm _ ((act.perform session).parts ++ gainedAll rest (act.perform session)
            ++ act.lost session) := later.append_right _
        List.Perm _ ((act.perform session).parts ++ act.lost session
            ++ gainedAll rest (act.perform session)) :=
          (swap _ _ _).symm.trans (List.Perm.of_eq (List.append_assoc _ _ _).symm)
        List.Perm _ (session.parts ++ act.gained session ++ gainedAll rest (act.perform session)) :=
          first.append_right _
        List.Perm _ (session.parts ++ (act.gained session
            ++ gainedAll rest (act.perform session))) :=
          List.Perm.of_eq (List.append_assoc _ _ _)

end Act

end Calculator
