import Calculator.Proofs.PoolLinks
import Calculator.Proofs.SessionActs

/-!
# Shared payloads are isolated and counted

Whatever has been done with a session, the count that the heap keeps for a payload is the number of places
that own it, and these are what storing, dropping and interning along the way add up to. A write to a
text through one place is seen at no other place, and what a pool holds at an index is the same until
it is released.
-/

namespace Calculator

namespace Copy

/-- Copying into a text is refused, or has nothing to write, or writes over bytes of it. A text with
other owners is then written as a new one. -/
theorem copyInto_text (source : Value) (start count position : Int) (exclusive : Bool)
    (text : Payload Bytes) (protection : Protection) (machine : Machine) :
    let ran := (Change.copy source start count position).program exclusive
      { destination := ⟨.text text, protection⟩, machine }
    let selected := bytesForText machine.blocks source start.toNat count
    ran.2.destination = ⟨.text text, protection⟩ ∧ ((∃ reason, ran.1 = .error reason)
        ∨ selected = .ok [] ∨ text.content.length ≤ position.toNat)
      ∨ ∃ bytes, selected = .ok bytes ∧ bytes ≠ [] ∧ position.toNat < text.content.length
        ∧ ran.1 = .ok ()
        ∧ ran.2.destination = ⟨.text
            { content := text.content.overwrite position.toNat
                (bytes.take (text.content.length - position.toNat))
              mark := if exclusive then text.mark else none }, protection⟩ := by
  dsimp only
  rcases ran : (Change.copy source start count position).program exclusive
    { destination := ⟨.text text, protection⟩, machine } with ⟨result, scene⟩
  cases result with
  | error reason => exact .inl ⟨(Change.program_fails _ exclusive ran).destination, .inl ⟨reason, rfl⟩⟩
  | ok _ =>
      have answered := Change.answered_run (.copy source start count position) exclusive
        ⟨.text text, protection⟩ machine
      rw [ran, Change.answered, copy_run] at answered
      cases admitted : permit machine.blocks source start ⟨.text text, protection⟩ with
      | error reason =>
          rw [admitted] at answered
          cases congrArg Prod.fst answered
      | ok _ =>
          rw [admitted] at answered
          dsimp only at answered
          unfold route at answered
          rw [Effect.get_bind_run] at answered
          dsimp only at answered
          cases selected : bytesForText machine.blocks source start.toNat count with
          | error reason =>
              rw [selected] at answered
              cases congrArg Prod.fst answered
          | ok bytes =>
              rw [selected, Effect.lift_ok_bind_run] at answered
              cases bytes with
              | nil =>
                  have left := Except.ok.inj (congrArg Prod.fst answered)
                  exact .inl ⟨left.symm, .inr (.inl rfl)⟩
              | cons byte more =>
                  have left := Except.ok.inj (congrArg Prod.fst answered)
                  dsimp only at left
                  rw [← left, intoText]
                  by_cases beyond : text.content.length ≤ position.toNat
                  · rw [if_pos beyond]
                    exact .inl ⟨rfl, .inr (.inr beyond)⟩
                  · rw [if_neg beyond]
                    exact .inr ⟨byte :: more, rfl, List.cons_ne_nil _ _, Nat.lt_of_not_le beyond,
                      rfl, rfl⟩

end Copy

namespace Session

/-- Nothing is seen to change but one variable. -/
structure Confined (before : Session) (name : String) (after : Session) : Prop where
  places : after.others name = before.others name
  bindings : ∀ other, other ≠ name → after.value? other = before.value? other
  constants : after.constants = before.constants
  literals : after.literals = before.literals

/-- A text in a variable is written over; `around` is what the variable holds around it. -/
def Writes (before : Session) (name : String) (around : Payload Bytes → Value)
    (old : Payload Bytes) (content : Bytes) (after : Session) : Prop :=
  ∃ new : Payload Bytes, new.content = content
    ∧ after.value? name = some (around new)
    ∧ Rewritten before old new after ∧ before.Confined name after

/-- How payloads are shared. -/
structure Shares (session : Session) : Prop where
  counted : ∀ part ∈ session.parts, ∃ id, part.id? = some id
    ∧ (∀ other ∈ session.parts, other.id? = some id → other = part)
    ∧ ∀ protection, session.links? (part.value protection)
      = some (Part.owners session.parts id)
  written : ∀ name around text content, session.value? name = some (around text) →
    ∀ front back, (∀ own, (around own).parts = front ++ .text own :: back) →
    session.Writes name around text content ((Act.write name around text content).perform session)
  poked : ∀ name text protection, session.value? name = some ⟨.text text, protection⟩ →
    ∀ index byte, session.Writes name (fun own => ⟨.text own, protection⟩) text
      (text.content.set index byte) ((Act.setByte name index byte).perform session)
  copied : ∀ name text protection, session.value? name = some ⟨.text text, protection⟩ →
    ∀ source start count position,
      let change := Copy.Change.copy source start count position
      let after := (Act.alter change name).perform session
      let selected := Copy.bytesForText session.machine.blocks source start.toNat count
      after.view = session.view
          ∧ ((∃ reason, (session.alter change ⟨.text text, protection⟩ (some name)).1 = .error reason)
            ∨ selected = .ok [] ∨ text.content.length ≤ position.toNat)
        ∨ ∃ bytes, selected = .ok bytes ∧ bytes ≠ [] ∧ position.toNat < text.content.length
          ∧ session.Writes name (fun own => ⟨.text own, protection⟩) text
            (text.content.overwrite position.toNat
              (bytes.take (text.content.length - position.toNat))) after

namespace Shows

variable {session after : Session} {view : View} {name : String}

theorem confined (shows : session.Shows view) {changed : View} (later : after.Shows changed)
    (touches : view.Touches (some name) changed) : session.Confined name after where
  places := by
    rw [others, others, shows.view_eq, later.view_eq]
    exact touches.others name rfl
  bindings := by
    intro other apart
    rw [shows.value?, later.value?]
    exact touches.values other fun same => apart (Option.some.inj same).symm
  constants := by
    rw [shows.constants_eq, later.constants_eq]
    exact touches.constants
  literals := by
    rw [shows.literals_eq, later.literals_eq]
    exact touches.literals

theorem writes (shows : session.Shows view) {around : Payload Bytes → Value} {text : Payload Bytes}
    {content : Bytes} (later : after.Shows (view.rewrite name around text content))
    (stored : view.value? name = some (around text)) {front back : List Part}
    (hole : ∀ own, (around own).parts = front ++ .text own :: back) :
    session.Writes name around text content after := by
  refine ⟨view.renew text content, rfl, ?_, shows.rewritten later stored hole,
    shows.confined later (.store view name _ _)⟩
  rw [later.value?]
  exact view.value?_store name _

theorem writesText (shows : session.Shows view) {text : Payload Bytes} {protection : Protection}
    {content : Bytes}
    (later : after.Shows (view.rewrite name (fun own => ⟨.text own, protection⟩) text content))
    (stored : view.value? name = some ⟨.text text, protection⟩) :
    session.Writes name (fun own => ⟨.text own, protection⟩) text content after :=
  @writes session after view name shows (fun own => ⟨.text own, protection⟩) text content later stored
    [] [] fun _ => rfl

theorem copied (shows : session.Shows view) {text : Payload Bytes} {protection : Protection}
    (stored : view.value? name = some ⟨.text text, protection⟩) (source : Value)
    (start count position : Int) :
    let change := Copy.Change.copy source start count position
    let ran := session.alter change ⟨.text text, protection⟩ (some name)
    let selected := Copy.bytesForText session.machine.blocks source start.toNat count
    ran.2.2.Shows view ∧ ((∃ reason, ran.1 = .error reason)
        ∨ selected = .ok [] ∨ text.content.length ≤ position.toNat)
      ∨ ∃ bytes, selected = .ok bytes ∧ bytes ≠ [] ∧ position.toNat < text.content.length
        ∧ ran.2.2.Shows (view.rewrite name (fun own => ⟨.text own, protection⟩) text
            (text.content.overwrite position.toNat
              (bytes.take (text.content.length - position.toNat)))) := by
  dsimp only
  obtain ⟨mark, owned⟩ := shows.settled.text_marked (View.parts_text stored)
  unfold Session.alter
  rw [Option.isSome_some, shows.isExclusive_eq]
  have moved := shows.withMachine ((Copy.Change.copy source start count position).program_pools
    (view.isAlone text) ⟨.text text, protection⟩ session.machine)
  have outcome := Copy.copyInto_text source start count position (view.isAlone text) text protection
    session.machine
  dsimp only at outcome ⊢
  generalize (Copy.Change.copy source start count position).program (view.isAlone text)
    { destination := ⟨.text text, protection⟩, machine := session.machine } = ran at moved outcome ⊢
  obtain ⟨result, scene⟩ := ran
  dsimp only at moved outcome ⊢
  rcases outcome with ⟨left, idle⟩ | ⟨bytes, selected, some, inside, _, left⟩
  · refine .inl ⟨?_, idle⟩
    have known : Known view.next ((⟨.text text, protection⟩ : Value).parts ++ view.parts) := by
      apply shows.settled.known.drawn
      intro part member
      rcases List.mem_append.mp member with own | old
      · rw [List.mem_singleton.mp own]
        exact .inr ((View.parts_text stored).mem_iff.mpr List.mem_cons_self)
      · exact .inr old
    have kept := @putBack _ view name moved ⟨.text text, protection⟩ known
    rw [View.assign_text owned, View.store_self stored] at kept
    rw [left]
    exact kept
  · refine .inr ⟨bytes, selected, some, inside, ?_⟩
    rw [left]
    exact moved.putBack_text stored _

theorem shares (shows : session.Shows view) : session.Shares where
  counted := by
    rw [parts, shows.view_eq]
    intro part member
    obtain ⟨id, owned⟩ : ∃ id, part.id? = some id := by
      have marked := shows.settled.owned part member
      rw [part.mark_eq, Option.isSome_map] at marked
      exact Option.isSome_iff_exists.mp marked
    refine ⟨id, owned, ?_, ?_⟩
    · intro other also same
      exact shows.settled.known.coherent other also part member id same owned
    · intro protection
      rw [shows.links?_eq part protection, owned]
      rfl
  written := by
    intro name around text content stored front back hole
    rw [shows.value?] at stored
    exact shows.writes (shows.writeText stored hole rfl content) stored hole
  poked := by
    intro name text protection stored index byte
    rw [shows.value?] at stored
    exact shows.writesText (shows.setTextByte stored index byte).2 stored
  copied := by
    intro name text protection stored source start count position
    dsimp only [Act.perform]
    rw [stored]
    rw [shows.value?] at stored
    rcases shows.copied stored source start count position with
      ⟨kept, idle⟩ | ⟨bytes, selected, some, inside, later⟩
    · exact .inl ⟨kept.view_eq.trans shows.view_eq.symm, idle⟩
    · exact .inr ⟨bytes, selected, some, inside, shows.writesText later stored⟩

end Shows

end Session

namespace Act

/-- What a pool holds at an index is the same along a run, as long as it is held. -/
def Steady {α : Type} (pool : Session → Pool α) (acts : List Act) (session : Session) : Prop :=
  ∀ index, (∀ state ∈ states acts session, (pool state).isHeld index = true) →
    ∀ state ∈ states acts session, (pool state).get index = (pool session).get index

/-- An act is seen in its variable at most. -/
structure Contained (act : Act) (session : Session) : Prop where
  constants : (act.perform session).constants = session.constants
  literals : (act.perform session).literals = session.literals
  elsewhere : ∀ name, act.target? = some name →
    (act.perform session).others name = session.others name
  values : ∀ name, act.target? ≠ some name →
    (act.perform session).value? name = session.value? name
  nowhere : act.target? = none → (act.perform session).parts = session.parts

variable {session : Session} {view : View}

theorem contained (shows : session.Shows view) {act : Act} (fits : act.Fits session)
    (off : act.onPool = false) : act.Contained session := by
  obtain ⟨after, reached, touches⟩ := perform_touches shows fits off
  refine ⟨?_, ?_, fun name target => ?_, fun name apart => ?_, fun idle => ?_⟩
  · rw [reached.constants_eq, shows.constants_eq]
    exact touches.constants
  · rw [reached.literals_eq, shows.literals_eq]
    exact touches.literals
  · rw [Session.others, Session.others, reached.view_eq, shows.view_eq]
    exact touches.others name target
  · rw [reached.value?, shows.value?]
    exact touches.values name apart
  · rw [Session.parts, Session.parts, reached.view_eq, shows.view_eq]
    exact touches.still idle

/-- A slot that is held before and after an act has the same payload. -/
def Keeps {α : Type} (pool : Session → Pool α) (act : Act) (session : Session) : Prop :=
  ∀ index, (pool session).isHeld index = true → (pool (act.perform session)).isHeld index = true →
    (pool (act.perform session)).get index = (pool session).get index

theorem keeps_pools (shows : session.Shows view) {act : Act} (fits : act.Fits session) :
    act.Keeps Session.constants session ∧ act.Keeps Session.literals session := by
  cases off : act.onPool with
  | true =>
      have known := fits.known
      rw [shows.next, Session.parts, shows.view_eq] at known
      cases act with
      | onConstants call =>
          have reached := onConstants_shows shows known
          rw [Keeps, Keeps, reached.constants_eq, reached.literals_eq, shows.constants_eq,
            shows.literals_eq]
          exact ⟨fun _ => Pool.get_perform, fun _ _ _ => rfl⟩
      | onLiterals call =>
          have reached := onLiterals_shows shows known
          rw [Keeps, Keeps, reached.constants_eq, reached.literals_eq, shows.constants_eq,
            shows.literals_eq]
          exact ⟨fun _ _ _ => rfl, fun _ => Pool.get_perform⟩
      | _ => cases off
  | false =>
      have within := contained shows fits off
      refine ⟨fun _ _ _ => ?_, fun _ _ _ => ?_⟩
      · rw [within.constants]
      · rw [within.literals]

theorem steady_of_keeps {α : Type} {pool : Session → Pool α}
    (keeps : ∀ {session : Session} {view : View} {act : Act}, session.Shows view →
      act.Fits session → act.Keeps pool session)
    (acts : List Act) (shows : session.Shows view) (admitted : Admitted acts session) :
    Steady pool acts session := by
  induction acts generalizing session view with
  | nil =>
      intro index _ state member
      rw [List.mem_singleton.mp member]
  | cons act rest ih =>
      intro index held state member
      obtain ⟨after, reached⟩ := perform_shows shows admitted.1
      rw [states, List.scanl_cons] at held member
      have later := ih reached admitted.2 index
        fun state member => held state (List.mem_cons_of_mem _ member)
      have next : act.perform session ∈ states rest (act.perform session) := by
        cases rest <;> simp [states]
      rcases List.mem_cons.mp member with rfl | behind
      · rfl
      · rw [later state behind]
        exact keeps shows admitted.1 index (held session List.mem_cons_self)
          (held _ (List.mem_cons_of_mem _ next))

end Act

/-- Payloads are shared as counted: in every session that can be reached, the links of a payload are its
owners, writes to a text are seen at the place that is written and nowhere else, and no act changes
what a pool holds at an index. -/
theorem shared_payloads_are_isolated (config : Config) (host : Host) (acts : List Act)
    (admitted : Act.Admitted acts (Session.start config host)) :
    let start := Session.start config host
    let session := Act.performAll acts start
    session.Shares
      ∧ (∀ id, Part.owners session.parts id + Part.owners (Act.lostAll acts start) id
        = Part.owners start.parts id + Part.owners (Act.gainedAll acts start) id)
      ∧ (∀ act : Act, act.Fits session → act.onPool = false → act.Contained session)
      ∧ ∀ later, Act.Admitted later session →
        Act.Steady Session.constants later session ∧ Act.Steady Session.literals later session := by
  have begun := Session.Shows.start config host
  obtain ⟨view, shows⟩ := Act.performAll_shows acts begun admitted
  refine ⟨shows.shares, ?_, ?_, ?_⟩
  · intro id
    have balance := (Act.performAll_balance acts begun admitted).countP_eq (Part.owns id)
    rwa [List.countP_append, List.countP_append] at balance
  · exact fun act fits off => Act.contained shows fits off
  · intro later allowed
    exact ⟨Act.steady_of_keeps (fun kept fits => (Act.keeps_pools kept fits).1) later shows allowed,
      Act.steady_of_keeps (fun kept fits => (Act.keeps_pools kept fits).2) later shows allowed⟩

namespace Act

def literal : Payload Bytes where
  content := [0x61, 0x62]
  mark := some 8

def sharing : List Act :=
  [.onLiterals (.intern (.fresh [0x61, 0x62])), .assign "a" (.plain (.text literal)),
   .assign "b" (.plain (.list [.plain (.text literal), .ofInt 7]))]

theorem sharing_admitted : Admitted sharing (Session.start {} (Host.initial none none)) := by
  have begun := Session.Shows.start {} (Host.initial none none)
  refine .of_drawn begun ?_ trivial fun _ pooled => .of_drawn pooled ?_ trivial fun _ stored =>
    .of_drawn stored ?_ trivial fun _ _ => trivial
  · intro part member
    rw [List.mem_singleton.mp member]
    exact .inl rfl
  · intro part member
    rw [List.mem_singleton.mp member]
    exact .inr (List.mem_of_getElem? (show _[9]? = some (Part.text literal) from rfl))
  · intro part member
    rcases List.mem_pair.mp member with rfl | rfl
    · exact .inr (List.mem_of_getElem? (show _[0]? = some (Part.text literal) from rfl))
    · exact .inl rfl

/-- Writing through one variable leaves the literal and the other variable as they are. -/
theorem literal_is_shared_and_kept :
    let session := performAll sharing (Session.start {} (Host.initial none none))
    let after := (setByte "a" 0 0x78).perform session
    Admitted sharing (Session.start {} (Host.initial none none))
      ∧ session.links? (.plain (.text literal)) = some 3
      ∧ after.links? (.plain (.text literal)) = some 2
      ∧ after.literals.get 1 = .ok literal
      ∧ ∃ new, after.value? "a" = some (.plain (.text new)) ∧ new.content = [0x78, 0x62]
        ∧ after.links? (.plain (.text new)) = some 1 ∧ literal.identical new = false := by
  have before : (performAll sharing (Session.start {} (Host.initial none none))).links?
      (.plain (.text literal)) = some 3 := by decide
  have shares := (shared_payloads_are_isolated {} (Host.initial none none) sharing
    sharing_admitted).1
  obtain ⟨new, content, stored, written, confined⟩ := shares.poked "a" literal Protection.none rfl 0 0x78
  obtain ⟨apart, _, links, old, left⟩ := written.fresh (by rw [before]; decide)
  rw [before] at old
  cases old
  refine ⟨sharing_admitted, before, left, ?_, new, stored, content, written.alone, apart⟩
  rw [confined.literals]
  rfl

end Act

end Calculator
