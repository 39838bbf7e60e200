import Calculator.Pool.Stored
import Calculator.Proofs.Heap
import Calculator.Proofs.Pool

/-!
# Pools over a store

The slots of a pool hold handles of payloads in a store. A call on such a pool does what it does to a
pool that has the payloads itself. What the call hands in is held once the pool keeps it, and what it
drops is let go of.
-/

namespace Calculator.Pool

section Payloads

variable {α : Type}

theorem payloads_eq (pool : Pool α) {bound : Nat} (covers : pool.size ≤ bound) :
    pool.payloads = (List.range bound).filterMap fun index => (pool.slotAt index).payload? := by
  obtain ⟨more, rfl⟩ := Nat.exists_eq_add_of_le covers
  have inside : pool.slots = (List.range pool.size).map pool.slotAt := by
    apply List.ext_getElem
    · rw [List.length_map, List.length_range, size]
    · intro index here _
      rw [List.getElem_map, List.getElem_range, slotAt, List.getElem?_eq_getElem here]
      rfl
  have beyond : ((List.range more).map (pool.size + ·)).filterMap
      (fun index => (pool.slotAt index).payload?) = [] := by
    rw [List.filterMap_eq_nil_iff]
    intro index member
    obtain ⟨past, _, rfl⟩ := List.mem_map.mp member
    have outside : pool.slots[pool.size + past]? = none :=
      List.getElem?_eq_none (Nat.le_add_right pool.slots.length past)
    rw [slotAt, outside]
    rfl
  rw [List.range_add, List.filterMap_append, beyond, List.append_nil, payloads]
  conv_lhs => rw [inside]
  rw [List.filterMap_map]
  rfl

theorem mem_payloads {pool : Pool α} {index : Nat} {payload : α}
    (held : (pool.slotAt index).payload? = some payload) : payload ∈ pool.payloads := by
  refine List.mem_filterMap.mpr ⟨_, mem_of_inside (inside_of_held ?_), held⟩
  intro vacant
  rw [vacant] at held
  cases held

variable [Internable α]

def Call.gained : Call α → List α
  | intern payload => [payload]
  | _ => []

/-- What is dropped by a call: a payload that is there already, or one whose slot falls vacant. -/
def Call.lost (pool : Pool α) (call : Call α) : List α :=
  match call, pool.slotAt (call.index pool) with
  | intern payload, .held _ _ _ => [payload]
  | release _, slot => if slot.dropLink.isVacant then slot.payload?.toList else []
  | _, _ => []

theorem payloads_around (pool : Pool α) (call : Call α) :
    ∃ others, pool.payloads.Perm ((pool.slotAt (call.index pool)).payload?.toList ++ others)
      ∧ (pool.perform call).payloads.Perm
          ((call.change (pool.slotAt (call.index pool))).payload?.toList ++ others) := by
  have split {β γ : Type} (read : β → Option γ) (head : β) (rest : List β) :
      (head :: rest).filterMap read = (read head).toList ++ rest.filterMap read := by
    rw [List.filterMap_cons]
    cases read head <;> rfl
  generalize place : call.index pool = index
  let bound := max pool.size (pool.perform call).size + (index + 1)
  have member : index ∈ List.range bound := List.mem_range.mpr (by omega)
  have parted := List.perm_cons_erase member
  have same : ((List.range bound).erase index).filterMap
        (fun other => ((pool.perform call).slotAt other).payload?)
      = ((List.range bound).erase index).filterMap (fun other => (pool.slotAt other).payload?) := by
    apply List.filterMap_congr
    intro other member
    have apart : other ≠ index := by
      rintro rfl
      exact List.nodup_range.not_mem_erase member
    rw [slotAt_perform, place, if_neg apart]
  refine ⟨((List.range bound).erase index).filterMap (fun other => (pool.slotAt other).payload?),
    ?_, ?_⟩
  · rw [pool.payloads_eq (by omega : pool.size ≤ bound),
      ← split fun other => (pool.slotAt other).payload?]
    exact parted.filterMap _
  · have own : (pool.perform call).slotAt index = call.change (pool.slotAt index) := by
      rw [slotAt_perform, place, if_pos rfl]
    rw [(pool.perform call).payloads_eq (by omega : (pool.perform call).size ≤ bound), ← same, ← own,
      ← split fun other => ((pool.perform call).slotAt other).payload?]
    exact parted.filterMap _

theorem payloads_perform (pool : Pool α) (call : Call α) :
    ((pool.perform call).payloads ++ call.lost pool).Perm (pool.payloads ++ call.gained) := by
  obtain ⟨others, before, after⟩ := pool.payloads_around call
  have own : ((call.change (pool.slotAt (call.index pool))).payload?.toList ++ call.lost pool).Perm
      ((pool.slotAt (call.index pool)).payload?.toList ++ call.gained) := by
    unfold Call.lost
    cases slot : pool.slotAt (call.index pool) with
    | vacant => cases call <;> exact List.Perm.refl _
    | held payload links pinned =>
        cases call with
        | intern _ | link _ => exact List.Perm.refl _
        | release _ =>
            cases pinned with
            | true => exact List.Perm.refl _
            | false =>
                by_cases last : links ≤ 1
                · simp [Call.change, Slot.dropLink, last, Slot.payload?, Slot.isVacant, Call.gained]
                · simp [Call.change, Slot.dropLink, last, Slot.payload?, Slot.isVacant, Call.gained]
  have moved (front back : List α) : (front ++ others ++ back).Perm (front ++ back ++ others) := by
    rw [List.append_assoc, List.append_assoc]
    exact List.perm_append_comm.append_left front
  exact calc
    List.Perm ((pool.perform call).payloads ++ call.lost pool)
        ((call.change (pool.slotAt (call.index pool))).payload?.toList ++ others ++ call.lost pool) :=
      after.append_right _
    List.Perm _
        ((call.change (pool.slotAt (call.index pool))).payload?.toList ++ call.lost pool ++ others) :=
      moved _ _
    List.Perm _ ((pool.slotAt (call.index pool)).payload?.toList ++ call.gained ++ others) :=
      own.append_right _
    List.Perm _ ((pool.slotAt (call.index pool)).payload?.toList ++ others ++ call.gained) :=
      (moved _ _).symm
    List.Perm _ (pool.payloads ++ call.gained) := before.symm.append_right _

theorem link_lost (pool : Pool α) (index : Nat) : (Call.link index).lost pool = [] := by
  unfold Call.lost
  dsimp only [Call.index]

theorem intern_lost (pool : Pool α) (payload : α) :
    (Call.intern payload).lost pool
      = if pool.slots.any (Slot.matchesPayload payload) then [payload] else [] := by
  have place : (Call.intern payload).index pool = (pool.intern payload).1 := rfl
  unfold Call.lost
  rw [place]
  rcases pool.intern_cases payload with ⟨index, found, interned⟩ | ⟨missed, other⟩
  · have held := matches_held found
    have known : pool.slots.any (Slot.matchesPayload payload) = true :=
      List.any_eq_true.mpr ⟨_, mem_of_inside (inside_of_held held), found⟩
    rw [interned, if_pos known]
    cases slot : pool.slotAt index with
    | vacant => exact absurd slot held
    | held _ _ _ => rfl
  · have new : pool.slots.any (Slot.matchesPayload payload) = false := by
      rw [List.any_eq_false]
      intro slot member
      obtain ⟨index, inside, rfl⟩ := List.getElem_of_mem member
      have unmatched := missed index
      rw [slotAt, List.getElem?_eq_getElem inside, Option.getD_some] at unmatched
      exact Bool.eq_false_iff.mp unmatched
    have vacant : pool.slotAt (pool.intern payload).1 = .vacant := by
      rcases other with ⟨index, _, empty, _, interned⟩ | ⟨_, interned⟩
      · rw [interned]
        exact empty
      · rw [interned]
        by_contra held
        exact Nat.lt_irrefl _ (inside_of_held held)
    rw [vacant, new]
    rfl

theorem release_lost {pool : Pool α} {index : Nat} {payload : α} (found : pool.get index = .ok payload) :
    (Call.release index).lost pool
      = if (pool.perform (.release index)).isHeld index then [] else [payload] := by
  have own : (pool.perform (.release index)).slotAt index = (pool.slotAt index).dropLink := by
    rw [slotAt_perform]
    exact if_pos rfl
  unfold Call.lost
  rw [isHeld_eq, own]
  dsimp only [Call.index]
  rw [(pool.get_ok_iff index payload).mp found]
  cases (pool.slotAt index).dropLink.isVacant <;> rfl

end Payloads

section Handles

variable {α β : Type} (change : α → β)

theorem slotAt_map (pool : Pool α) (index : Nat) :
    (pool.map change).slotAt index = (pool.slotAt index).map change := by
  rw [slotAt, slotAt, map, List.getElem?_map]
  cases pool.slots[index]? <;> rfl

theorem isHeld_map (pool : Pool α) (index : Nat) :
    (pool.map change).isHeld index = pool.isHeld index := by
  rw [isHeld_eq, isHeld_eq, slotAt_map]
  cases pool.slotAt index <;> rfl

theorem get_map (pool : Pool α) (index : Nat) :
    (pool.map change).get index = (pool.get index).map change := by
  rw [get, get, map, List.getElem?_map]
  cases pool.slots[index]? with
  | none => rfl
  | some slot => cases slot <;> rfl

theorem modify_map {one : Slot α → Slot α} {other : Slot β → Slot β}
    (same : ∀ slot, other (slot.map change) = (one slot).map change) (slots : List (Slot α))
    (index : Nat) :
    (slots.map (Slot.map change)).modify index other
      = (slots.modify index one).map (Slot.map change) := by
  apply List.ext_getElem?
  intro place
  rw [List.getElem?_modify, List.getElem?_map, List.getElem?_map, List.getElem?_modify]
  cases slots[place]? with
  | none => rfl
  | some slot =>
      by_cases own : index = place
      · simp [own, same]
      · simp [own]

theorem addLink_map (slot : Slot α) : (slot.map change).addLink = slot.addLink.map change := by
  cases slot <;> rfl

theorem dropLink_map (slot : Slot α) : (slot.map change).dropLink = slot.dropLink.map change := by
  cases slot with
  | vacant => rfl
  | held payload links pinned =>
      cases pinned with
      | true => rfl
      | false =>
          simp only [Slot.map, Slot.dropLink]
          split <;> rfl

theorem trim_map (slots : List (Slot α)) :
    trim (slots.map (Slot.map change)) = (trim slots).map (Slot.map change) := by
  have vacancy : (Slot.isVacant ∘ Slot.map change : Slot α → Bool) = Slot.isVacant := by
    funext slot
    cases slot <;> rfl
  rw [trim, trim, ← List.map_reverse, List.dropWhile_map, vacancy, List.map_reverse]

theorem link_map (pool : Pool α) (index : Nat) :
    (pool.map change).link index = (pool.link index).map (Pool.map change) := by
  rw [link, link, get_map]
  cases pool.get index with
  | error _ => rfl
  | ok _ =>
      have linked := modify_map change (addLink_map change) pool.slots index
      exact congrArg (fun slots => Except.ok { pool.map change with slots }) linked

theorem release_map (pool : Pool α) (index : Nat) :
    (pool.map change).release index = (pool.release index).map (Pool.map change) := by
  rw [release, release, get_map]
  cases pool.get index with
  | error _ => rfl
  | ok _ =>
      have dropped := modify_map change (dropLink_map change) pool.slots index
      have released : (if index + 1 = ((pool.map change).slots.modify index Slot.dropLink).length
            then trim ((pool.map change).slots.modify index Slot.dropLink)
            else (pool.map change).slots.modify index Slot.dropLink)
          = (if index + 1 = (pool.slots.modify index Slot.dropLink).length
            then trim (pool.slots.modify index Slot.dropLink)
            else pool.slots.modify index Slot.dropLink).map (Slot.map change) := by
        rw [show (pool.map change).slots.modify index Slot.dropLink = _ from dropped, List.length_map,
          trim_map]
        split <;> rfl
      exact congrArg (fun slots => Except.ok { pool.map change with slots }) released

end Handles

section Stored

variable {α : Type} [Inhabited α] {pool : Pool (Payload α)} {store : Store α}
  {more : List (Payload α)}

theorem load_handles (holds : store.Holds (pool.payloads ++ more))
    (marked : ∀ payload ∈ pool.payloads, payload.mark.isSome) :
    (pool.map Payload.handle).load store = pool := by
  have each : ∀ slot ∈ pool.slots, Slot.map store.read (slot.map Payload.handle) = slot := by
    intro slot member
    cases slot with
    | vacant => rfl
    | held payload links pinned =>
        have listed : payload ∈ pool.payloads := List.mem_filterMap.mpr ⟨_, member, rfl⟩
        have same : payload.handle.mark = payload.mark := rfl
        have back := holds.read (List.mem_append_left _ listed) (marked payload listed) same
        simp only [Slot.map, back]
  have all : (pool.slots.map (Slot.map Payload.handle)).map (Slot.map store.read) = pool.slots := by
    rw [List.map_map]
    exact (List.map_congr_left each).trans (List.map_id _)
  exact congrArg (fun slots => { pool with slots }) all

variable [Internable (Payload α)]

/-- A call on a pool whose payloads are in a store. A call that is refused changes nothing. -/
def performStored (pool : Pool (Payload α)) (store : Store α) :
    Call (Payload α) → Pool (Payload α) × Store α
  | .intern payload => (pool.internStored store payload).2
  | .link index => ((pool.link index).toOption.getD pool, store)
  | .release index => (pool.releaseStored store index).toOption.getD (pool, store)

/-- What is left of the handles and of the store is what a call leaves of the payloads. -/
def Mirrors (pool : Pool (Payload α)) (more : List (Payload α)) (call : Call (Payload α))
    (left : Pool (Payload α) × Store α) : Prop :=
  left.1 = (pool.perform call).map Payload.handle ∧ left.2.Holds ((pool.perform call).payloads ++ more)

theorem mirrors_intern (holds : store.Holds (pool.payloads ++ more))
    (marked : ∀ payload ∈ pool.payloads, payload.mark.isSome) {payload : Payload α}
    (owned : payload.mark.isSome) (same : ∀ other ∈ pool.payloads ++ more,
      other.mark = payload.mark → other.content = payload.content) :
    pool.Mirrors more (.intern payload)
      ((pool.map Payload.handle).performStored store (.intern payload)) := by
  have step : (pool.map Payload.handle).performStored store (.intern payload)
      = ((pool.perform (.intern payload)).map Payload.handle,
        if pool.slots.any (Slot.matchesPayload payload) then store else store.hold payload) := by
    rw [performStored, internStored, load_handles holds marked]
    rfl
  have balance := pool.payloads_perform (.intern payload)
  rw [intern_lost, Call.gained] at balance
  rw [step]
  refine ⟨rfl, ?_⟩
  by_cases known : pool.slots.any (Slot.matchesPayload payload) = true
  · rw [if_pos known] at balance ⊢
    have kept := (List.perm_append_right_iff _).mp balance
    exact holds.perm (kept.symm.append_right more)
  · rw [if_neg known, List.append_nil] at balance
    rw [if_neg known]
    obtain ⟨mark, tag⟩ := Option.isSome_iff_exists.mp owned
    rw [tag] at same
    have grown := (List.perm_append_singleton payload pool.payloads).symm.trans balance.symm
    exact (holds.hold tag same).perm (grown.append_right more)

theorem mirrors_link (holds : store.Holds (pool.payloads ++ more)) (index : Nat) :
    pool.Mirrors more (.link index)
      ((pool.map Payload.handle).performStored store (.link index)) := by
  have nothing : (Call.link index).gained = ([] : List (Payload α)) := rfl
  have balance := pool.payloads_perform (.link index)
  rw [link_lost, nothing, List.append_nil, List.append_nil] at balance
  refine ⟨?_, holds.perm (balance.symm.append_right more)⟩
  dsimp only [performStored, perform]
  rw [link_map]
  cases pool.link index <;> rfl

theorem mirrors_release (holds : store.Holds (pool.payloads ++ more))
    (marked : ∀ payload ∈ pool.payloads, payload.mark.isSome) (index : Nat) :
    pool.Mirrors more (.release index)
      ((pool.map Payload.handle).performStored store (.release index)) := by
  cases found : pool.get index with
  | error reason =>
      have refused : pool.perform (.release index) = pool := by
        rw [perform, release, found]
        rfl
      have none : (pool.map Payload.handle).performStored store (.release index)
          = (pool.map Payload.handle, store) := by
        rw [performStored, releaseStored, get_map, found]
        rfl
      rw [Mirrors, none, refused]
      exact ⟨rfl, holds⟩
  | ok payload =>
      obtain ⟨released, done⟩ : ∃ released, pool.release index = .ok released := by
        rw [release, found]
        exact ⟨_, rfl⟩
      have after : pool.perform (.release index) = released := by
        rw [perform, done]
        rfl
      have step : (pool.map Payload.handle).performStored store (.release index)
          = (released.map Payload.handle,
            if released.isHeld index then store else store.release payload) := by
        rw [performStored, releaseStored, get_map, found, release_map, done, ← isHeld_map
          Payload.handle released index]
        rfl
      have nothing : (Call.release index).gained = ([] : List (Payload α)) := rfl
      have balance := pool.payloads_perform (.release index)
      rw [release_lost found, nothing, List.append_nil, after] at balance
      rw [Mirrors, step, after]
      refine ⟨rfl, ?_⟩
      by_cases held : released.isHeld index = true
      · rw [if_pos held, List.append_nil] at balance
        rw [if_pos held]
        exact holds.perm (balance.symm.append_right more)
      · rw [if_neg held] at balance ⊢
        have listed : payload ∈ pool.payloads :=
          mem_payloads ((pool.get_ok_iff index payload).mp found)
        obtain ⟨mark, tag⟩ := Option.isSome_iff_exists.mp (marked payload listed)
        have shrunk := balance.symm.trans (List.perm_append_singleton payload _)
        exact Store.Holds.release (holds.perm (shrunk.append_right more)) tag

/-- A pool of handles does what a pool of the payloads does, and its payloads are in the store. -/
theorem performStored_eq (holds : store.Holds (pool.payloads ++ more))
    (marked : ∀ payload ∈ pool.payloads, payload.mark.isSome) (call : Call (Payload α))
    (handed : ∀ payload ∈ call.gained, payload.mark.isSome
      ∧ ∀ other ∈ pool.payloads ++ more, other.mark = payload.mark →
        other.content = payload.content) :
    ((pool.map Payload.handle).performStored store call).1
        = (pool.perform call).map Payload.handle
      ∧ ((pool.map Payload.handle).performStored store call).2.Holds
          ((pool.perform call).payloads ++ more) := by
  cases call with
  | intern payload =>
      obtain ⟨owned, same⟩ := handed payload List.mem_cons_self
      exact mirrors_intern holds marked owned same
  | link index => exact mirrors_link holds index
  | release index => exact mirrors_release holds marked index

end Stored

end Calculator.Pool
