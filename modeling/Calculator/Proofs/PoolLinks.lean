import Calculator.Proofs.Pool

/-!
# Links are counted

A pool is a map of indices to payloads of different content. Interning finds the index of an equal
content, or takes the lowest vacant slot, or the next index. From the call that stores a payload to the
call that drops its last link, its index is the same, and its links are what the calls in between add
up to.
-/

namespace Calculator

namespace Pool

section Runs

variable {α : Type} [Internable α]

def states (calls : List (Call α)) (pool : Pool α) : List (Pool α) :=
  calls.scanl perform pool

/-- The call is an intern that returns the index, or links it. -/
def Call.adds (index : Nat) (pool : Pool α) : Call α → Bool
  | intern payload => (pool.intern payload).1 == index
  | link other => other == index
  | release _ => false

def Call.drops (index : Nat) : Call α → Bool
  | release other => other == index
  | _ => false

def added (index : Nat) : List (Call α) → Pool α → Nat
  | [], _ => 0
  | call :: rest, pool => (call.adds index pool).toNat + added index rest (pool.perform call)

def dropped (index : Nat) (calls : List (Call α)) : Nat :=
  calls.countP (Call.drops index)

theorem performAll_concat (calls : List (Call α)) (call : Call α) (pool : Pool α) :
    pool.performAll (calls ++ [call]) = (pool.performAll calls).perform call := by
  rw [performAll, List.foldl_append]
  rfl

theorem states_concat (calls : List (Call α)) (call : Call α) (pool : Pool α) :
    pool.states (calls ++ [call]) = pool.states calls ++ [(pool.performAll calls).perform call] := by
  rw [states, List.scanl_append]
  rfl

theorem get_perform {pool : Pool α} {call : Call α} {index : Nat}
    (before : pool.isHeld index = true) (after : (pool.perform call).isHeld index = true) :
    (pool.perform call).get index = pool.get index := by
  rw [isHeld_iff] at before after
  cases slot : (pool.perform call).slotAt index with
  | vacant => exact absurd slot after
  | held payload links pinned =>
      have stored : ((pool.perform call).slotAt index).payload? = some payload := by
        rw [slot]
        rfl
      have same : (pool.slotAt index).payload? = some payload := by
        rw [slotAt_perform] at stored
        split at stored
        · rcases Call.payload_of_change stored with kept | ⟨empty, _⟩
          · exact kept
          · exact absurd empty before
        · exact stored
      rw [(get_ok_iff _ _ _).mpr stored, (get_ok_iff _ _ _).mpr same]

theorem get_states {calls : List (Call α)} {pool : Pool α} {index : Nat}
    (held : ∀ state ∈ pool.states calls, state.isHeld index = true) :
    ∀ state ∈ pool.states calls, state.get index = pool.get index := by
  induction calls generalizing pool with
  | nil =>
      intro state member
      rw [List.mem_singleton.mp member]
  | cons call rest ih =>
      rw [states, List.scanl_cons] at held ⊢
      intro state member
      rcases List.mem_cons.mp member with rfl | later
      · rfl
      · have start : pool.perform call ∈ (pool.perform call).states rest := by
          cases rest <;> simp [states]
        rw [ih (fun state member => held state (List.mem_cons_of_mem _ member)) state later,
          get_perform (held pool List.mem_cons_self) (held _ (List.mem_cons_of_mem _ start))]

theorem Call.elsewhere {pool : Pool α} {call : Call α} {index : Nat} (other : index ≠ call.index pool) :
    call.adds index pool = false ∧ call.drops index = false := by
  cases call with
  | intern wanted => exact ⟨beq_false_of_ne (Ne.symm other), rfl⟩
  | link place => exact ⟨beq_false_of_ne (Ne.symm other), rfl⟩
  | release place => exact ⟨rfl, beq_false_of_ne (Ne.symm other)⟩

/-- What a call does to the links of a slot that is not pinned. -/
theorem slotAt_counted {pool : Pool α} {index : Nat} {payload : α} {links : Nat}
    (slot : pool.slotAt index = .held payload links false) (linked : 1 ≤ links) (call : Call α) :
    (call.drops index).toNat ≤ links + (call.adds index pool).toNat
      ∧ (pool.perform call).slotAt index
        = if (call.drops index).toNat = links + (call.adds index pool).toNat then .vacant
          else .held payload (links + (call.adds index pool).toNat - (call.drops index).toNat)
            false := by
  rw [slotAt_perform, slot]
  by_cases own : index = call.index pool
  · rw [if_pos own]
    cases call with
    | intern wanted =>
        have added : (Call.intern wanted).adds index pool = true := beq_iff_eq.mpr own.symm
        simp [added, Call.drops, Call.change, Slot.addLink]
    | link place =>
        have added : (Call.link place : Call α).adds index pool = true := beq_iff_eq.mpr own.symm
        simp [added, Call.drops, Call.change, Slot.addLink]
    | release place =>
        have lost : (Call.release place : Call α).drops index = true := beq_iff_eq.mpr own.symm
        by_cases last : links = 1
        · simp [lost, Call.adds, Call.change, Slot.dropLink, last]
        · have more : ¬ links ≤ 1 := by omega
          simp [lost, Call.adds, Call.change, Slot.dropLink, more, linked, Ne.symm last]
  · obtain ⟨unadded, kept⟩ := Call.elsewhere own
    have positive : ¬ 0 = links := by omega
    simp [own, unadded, kept, positive]

/-- The links of a slot that is not pinned, over a run in which it is held up to the last call. -/
theorem slotAt_run {pool : Pool α} {index : Nat} {payload : α} {links : Nat} {calls : List (Call α)}
    (slot : pool.slotAt index = .held payload links false) (linked : 1 ≤ links)
    (held : ∀ state ∈ (pool.states calls).dropLast, state.isHeld index = true) :
    dropped index calls ≤ links + added index calls pool
      ∧ (pool.performAll calls).slotAt index
        = if dropped index calls = links + added index calls pool then .vacant
          else .held payload (links + added index calls pool - dropped index calls) false := by
  induction calls generalizing pool links with
  | nil => simp [dropped, added, performAll, slot, Nat.ne_of_lt linked]
  | cons call rest ih =>
      obtain ⟨enough, stepped⟩ := slotAt_counted slot linked call
      have total : dropped index (call :: rest) = (call.drops index).toNat + dropped index rest := by
        rw [dropped, List.countP_cons, dropped, Nat.add_comm]
        cases call.drops index <;> rfl
      have run : pool.performAll (call :: rest) = (pool.perform call).performAll rest := rfl
      rw [total, added, run]
      by_cases gone : (call.drops index).toNat = links + (call.adds index pool).toNat
      · -- The slot is vacant now, and so this was the last call.
        rw [if_pos gone] at stepped
        cases rest with
        | nil => simpa [dropped, added, performAll, gone] using stepped
        | cons next others =>
            have early : pool.perform call ∈ (pool.states (call :: next :: others)).dropLast := by
              simp [states, List.dropLast_cons_of_ne_nil]
            exact absurd stepped ((isHeld_iff _ _).mp (held _ early))
      · rw [if_neg gone] at stepped
        obtain ⟨fewer, reached⟩ := ih stepped (by omega) (by
          intro state member
          apply held
          rw [states, List.scanl_cons, List.dropLast_cons_of_ne_nil List.scanl_ne_nil]
          exact List.mem_cons_of_mem _ member)
        refine ⟨by omega, ?_⟩
        rw [reached]
        split
        · rw [if_pos (by omega)]
        · rw [if_neg (by omega)]
          congr 1
          omega

theorem slotAt_stored {pool : Pool α} {wanted : α} {index : Nat} (absent : pool.isHeld index = false)
    (answer : (pool.intern wanted).1 = index) :
    (pool.perform (.intern wanted)).slotAt index = .held wanted 1 false := by
  rw [slotAt_perform, (not_isHeld_iff _ _).mp absent, Call.index, if_pos answer.symm]
  rfl

/-- What a run has come to hold was stored by one of its interns, and is held since. -/
theorem stored_by_call {start : Pool α} {calls : List (Call α)} {index : Nat}
    (absent : start.isHeld index = false) (held : (start.performAll calls).isHeld index = true) :
    ∃ before wanted later, calls = before ++ .intern wanted :: later
      ∧ (start.performAll before).isHeld index = false
      ∧ ((start.performAll before).intern wanted).1 = index
      ∧ ∀ state ∈ ((start.performAll before).perform (.intern wanted)).states later,
          state.isHeld index = true := by
  induction calls using List.reverseRecOn with
  | nil =>
      rw [performAll, List.foldl_nil, absent] at held
      cases held
  | append_singleton earlier call ih =>
      rw [performAll_concat] at held
      cases present : (start.performAll earlier).isHeld index with
      | true =>
          obtain ⟨before, wanted, later, rfl, empty, answer, kept⟩ := ih present
          refine ⟨before, wanted, later ++ [call], by simp, empty, answer, ?_⟩
          intro state member
          rw [states_concat] at member
          rcases List.mem_append.mp member with old | last
          · exact kept state old
          · rw [List.mem_singleton.mp last]
            rw [performAll, List.foldl_append, List.foldl_cons] at held
            exact held
      | false =>
          -- A call that leaves a vacant slot held has stored its payload there.
          have reached := (isHeld_iff _ _).mp held
          rw [slotAt_perform, (not_isHeld_iff _ _).mp present] at reached
          cases call with
          | intern wanted =>
              have own : index = ((start.performAll earlier).intern wanted).1 := by
                by_contra other
                rw [if_neg (by exact other)] at reached
                exact reached rfl
              refine ⟨earlier, wanted, [], rfl, present, own.symm, ?_⟩
              intro state member
              rw [List.mem_singleton.mp member]
              exact held
          | link other => simp [Call.change, Slot.addLink] at reached
          | release other => simp [Call.change, Slot.dropLink] at reached

end Runs

variable {α : Type} [Internable (Payload α)]

/-- How a pool gives out indices, keeps payloads and counts links from now on. -/
structure Accounts (pool : Pool (Payload α)) : Prop where
  found : ∀ wanted index payload, pool.get index = .ok payload →
    payload.content = wanted.content → (pool.intern wanted).1 = index
  reused : ∀ wanted, (∀ index payload, pool.get index = .ok payload →
      payload.content ≠ wanted.content) →
    ∀ index < pool.size, pool.isHeld index = false → (∀ lower < index, pool.isHeld lower = true) →
      (pool.intern wanted).1 = index
  extended : ∀ wanted, (∀ index payload, pool.get index = .ok payload →
      payload.content ≠ wanted.content) →
    (∀ index < pool.size, pool.isHeld index = true) → (pool.intern wanted).1 = pool.size
  steady : ∀ calls index, (∀ state ∈ pool.states calls, state.isHeld index = true) →
    ∀ state ∈ pool.states calls, state.get index = pool.get index
  counted : ∀ wanted index, pool.isHeld index = false → (pool.intern wanted).1 = index →
    ∀ calls, (∀ state ∈ ((pool.perform (.intern wanted)).states calls).dropLast,
        state.isHeld index = true) →
      let stored := pool.perform (.intern wanted)
      let last := stored.performAll calls
      dropped index calls ≤ 1 + added index calls stored
        ∧ (last.isHeld index = false ↔ dropped index calls = 1 + added index calls stored)
        ∧ (last.isHeld index = true → last.get index = .ok wanted
          ∧ last.links index = .ok (1 + added index calls stored - dropped index calls))

section Interning

variable [Faithful α] {pool : Pool (Payload α)} {wanted : Payload α}

theorem unmatched (absent : ∀ index payload, pool.get index = .ok payload →
    payload.content ≠ wanted.content) (index : Nat) :
    (pool.slotAt index).matchesPayload wanted = false := by
  rw [Bool.eq_false_iff]
  intro found
  obtain ⟨payload, held, equal⟩ := matchesPayload_iff.mp found
  exact absent index payload ((get_ok_iff _ _ _).mpr held) equal

theorem Kept.accounts {standing : List (Payload α)} (kept : pool.Kept standing) :
    pool.Accounts where
  found := by
    intro wanted index payload held equal
    rw [get_ok_iff] at held
    rcases pool.intern_cases wanted with ⟨place, matched, interned⟩ | ⟨missed, _⟩
    · obtain ⟨stored, here, same⟩ := matchesPayload_iff.mp matched
      rw [interned]
      exact kept.distinct place index stored payload here held (same.trans equal.symm)
    · have found := matchesPayload_iff.mpr ⟨payload, held, equal⟩
      rw [missed index] at found
      cases found
  reused := by
    intro wanted absent index inside vacant lowest
    rw [not_isHeld_iff] at vacant
    rcases pool.intern_cases wanted with
      ⟨place, matched, _⟩ | ⟨_, ⟨place, _, empty, below, interned⟩ | ⟨full, _⟩⟩
    · rw [unmatched absent place] at matched
      cases matched
    · rw [interned]
      rcases Nat.lt_trichotomy place index with before | same | after
      · exact absurd empty ((isHeld_iff _ _).mp (lowest place before))
      · exact same
      · exact absurd vacant (below index after)
    · exact absurd vacant (full index inside)
  extended := by
    intro wanted absent full
    rcases pool.intern_cases wanted with
      ⟨place, matched, _⟩ | ⟨_, ⟨place, inside, empty, _, _⟩ | ⟨_, interned⟩⟩
    · rw [unmatched absent place] at matched
      cases matched
    · exact absurd empty ((isHeld_iff _ _).mp (full place inside))
    · rw [interned]
  steady := fun _ _ held => get_states held
  counted := by
    intro wanted index absent answer calls held
    obtain ⟨enough, reached⟩ := slotAt_run (slotAt_stored absent answer) (Nat.le_refl 1) held
    refine ⟨enough, ?_, ?_⟩
    · rw [not_isHeld_iff, reached]
      split <;> simp_all
    · intro live
      have present := (isHeld_iff _ _).mp live
      rw [get_ok_iff, links_of_inside (inside_of_held present), reached]
      rw [reached] at present
      split
      · rename_i gone
        rw [if_pos gone] at present
        exact absurd rfl present
      · exact ⟨rfl, rfl⟩

end Interning

/-- The account of a pool over every run from its start, where `standing` was in it. -/
structure Ledger (standing : List (Payload α)) (start : Pool (Payload α)) : Prop where
  accounts : ∀ calls, (start.performAll calls).Accounts
  stored : ∀ calls index, standing.length ≤ index → (start.performAll calls).isHeld index = true →
    ∃ before wanted later, calls = before ++ .intern wanted :: later
      ∧ (start.performAll before).isHeld index = false
      ∧ ((start.performAll before).intern wanted).1 = index
      ∧ ∀ state ∈ ((start.performAll before).perform (.intern wanted)).states later,
          state.isHeld index = true

theorem Kept.ledger [Faithful α] {standing : List (Payload α)} {start : Pool (Payload α)}
    (kept : start.Kept standing) (size : start.size = standing.length) :
    start.Ledger standing where
  accounts := fun calls => (kept.performAll calls).accounts
  stored := by
    intro calls index beyond held
    refine stored_by_call ?_ held
    rw [not_isHeld_iff]
    by_contra present
    exact absurd (inside_of_held present) (by omega)

end Pool

/-- Every pool is a ledger of the links to its payloads. -/
theorem pools_count_links (label : String) (chunk : Nat) :
    (Pool.empty label chunk : Pool (Payload Bytes)).Ledger []
      ∧ (Pool.empty label chunk : Pool (Payload Number)).Ledger []
      ∧ (Constants.new chunk).Ledger Constants.standing
      ∧ (Literals.new chunk).Ledger Literals.standing := by
  refine ⟨?_, ?_, ?_, ?_⟩
  · exact (Pool.empty_kept label chunk).ledger rfl
  · exact (Pool.empty_kept label chunk).ledger rfl
  · exact (Constants.new_kept chunk).ledger rfl
  · exact (Literals.new_kept chunk).ledger rfl

end Calculator
