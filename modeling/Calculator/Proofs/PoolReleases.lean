import Calculator.Proofs.Pool

/-!
# Releases

A release gives one link back. It undoes the interning that took the link, and releases of different
indices do not see each other: the pool after them depends on how often each index was released, and
not on the order. A slot that falls vacant below the top stays until the top is trimmed, so that two
orders trim at different moments; they end alike because a pool is always trimmed as far as it can be.
-/

namespace Calculator

namespace Pool

variable {α : Type}

theorem Trimmed.length_le {left right : List (Slot α)} (trimmed : Trimmed left)
    (same : ∀ index : Nat, left[index]?.getD Slot.vacant = right[index]?.getD Slot.vacant) :
    left.length ≤ right.length := by
  by_contra shorter
  have inside : left.length - 1 < left.length := by omega
  have beyond : right.length ≤ left.length - 1 := by omega
  have top : left.getLast? = some left[left.length - 1] := by
    rw [List.getLast?_eq_getElem?, List.getElem?_eq_getElem inside]
  have held := trimmed _ top
  have vacant := same (left.length - 1)
  rw [List.getElem?_eq_getElem inside, List.getElem?_eq_none beyond] at vacant
  simp only [Option.getD_some, Option.getD_none] at vacant
  simp [vacant, Slot.isVacant] at held

theorem Trimmed.ext {left right : List (Slot α)} (first : Trimmed left) (second : Trimmed right)
    (same : ∀ index : Nat, left[index]?.getD Slot.vacant = right[index]?.getD Slot.vacant) :
    left = right := by
  have lengths : left.length = right.length := by
    apply Nat.le_antisymm
    · exact first.length_le same
    · exact second.length_le fun index => (same index).symm
  apply List.ext_getElem lengths
  intro index inLeft inRight
  have reads := same index
  simpa [List.getElem?_eq_getElem inLeft, List.getElem?_eq_getElem inRight] using reads

/-- Held slots have links, and the top slot is held. -/
structure Tidy (pool : Pool α) : Prop where
  linked : ∀ index, (pool.slotAt index).isVacant = false → 1 ≤ (pool.slotAt index).links
  trimmed : Trimmed pool.slots

theorem empty_tidy (label : String) (chunk : Nat) : (empty label chunk : Pool α).Tidy := by
  constructor
  · intro index held
    simp [slotAt, empty, Slot.isVacant] at held
  · intro slot last
    simp [empty] at last

theorem Tidy.ext {left right : Pool α} (first : left.Tidy) (second : right.Tidy)
    (chunks : left.chunk = right.chunk) (capacities : left.capacity = right.capacity)
    (labels : left.label = right.label) (same : ∀ index, left.slotAt index = right.slotAt index) :
    left = right := by
  have slots := first.trimmed.ext second.trimmed same
  cases left
  cases right
  simp_all

section Releasing

variable [Internable α] {pool : Pool α}

theorem Tidy.perform (tidy : pool.Tidy) (call : Call α) : (pool.perform call).Tidy := by
  constructor
  · exact perform_linked tidy.linked call
  · exact perform_trimmed tidy.trimmed call

theorem Tidy.performAll (tidy : pool.Tidy) (calls : List (Call α)) :
    (pool.performAll calls).Tidy := by
  induction calls generalizing pool with
  | nil => exact tidy
  | cons call rest ih => exact ih (tidy.perform call)

theorem release_ok_iff (pool : Pool α) (index : Nat) (after : Pool α) :
    pool.release index = .ok after
      ↔ pool.isHeld index = true ∧ pool.perform (.release index) = after := by
  rw [isHeld_iff, Pool.perform]
  cases slot : pool.slotAt index with
  | vacant =>
      have missing : ∀ payload, pool.get index ≠ .ok payload := by
        intro payload found
        rw [get_ok_iff, slot] at found
        simp [Slot.payload?] at found
      cases found : pool.get index with
      | ok payload => exact absurd found (missing payload)
      | error breach =>
          have refused : pool.release index = .error breach := by
            rw [release, found]
            rfl
          simp [refused]
  | held payload links pinned =>
      have found : pool.get index = .ok payload := by
        rw [get_ok_iff, slot]
        rfl
      obtain ⟨reached, accepted⟩ : ∃ reached, pool.release index = .ok reached := by
        rw [release, found]
        exact ⟨_, rfl⟩
      simp [accepted, Except.toOption]

theorem slotAt_release (pool : Pool α) (index other : Nat) :
    (pool.perform (.release index)).slotAt other
      = if other = index then (pool.slotAt other).dropLink else pool.slotAt other :=
  slotAt_perform pool (.release index) other

theorem perform_release_settings (pool : Pool α) (index : Nat) :
    (pool.perform (.release index)).chunk = pool.chunk
      ∧ (pool.perform (.release index)).capacity = pool.capacity
      ∧ (pool.perform (.release index)).label = pool.label := by
  rw [Pool.perform, release]
  cases pool.get index with
  | error breach => exact ⟨rfl, rfl, rfl⟩
  | ok payload => exact ⟨rfl, rfl, rfl⟩

omit [Internable α] in
theorem dropLink_intern {slot : Slot α} (linked : slot.isVacant = false → 1 ≤ slot.links)
    (payload : α) : ((Call.intern payload).change slot).dropLink = slot := by
  cases slot with
  | vacant => simp [Call.change, Slot.dropLink]
  | held stored links pinned =>
      have before : 1 ≤ links := linked rfl
      cases pinned with
      | true => simp [Call.change, Slot.addLink, Slot.dropLink, before]
      | false =>
          have more : links ≠ 0 := by omega
          simp [Call.change, Slot.addLink, Slot.dropLink, more]

theorem slotAt_intern (pool : Pool α) (payload : α) (other : Nat) :
    (pool.perform (.intern payload)).slotAt other
      = if other = (pool.intern payload).1 then (Call.intern payload).change (pool.slotAt other)
        else pool.slotAt other :=
  slotAt_perform pool (.intern payload) other

theorem isHeld_intern (pool : Pool α) (payload : α) :
    (pool.perform (.intern payload)).isHeld (pool.intern payload).1 = true := by
  rw [isHeld_iff, slotAt_intern, if_pos rfl]
  cases pool.slotAt (pool.intern payload).1 with
  | vacant => simp [Call.change]
  | held stored links pinned => simp [Call.change, Slot.addLink]

/-- Releasing what was just interned brings the slots back: a link less on a slot that was found, a
vacant slot where one was filled, and no slot where one was added. -/
theorem Tidy.release_intern (tidy : pool.Tidy) (payload : α) :
    ∃ after, (pool.intern payload).2.release (pool.intern payload).1 = .ok after
      ∧ after.slots = pool.slots := by
  let index := (pool.intern payload).1
  have interned : (pool.perform (.intern payload)).Tidy := tidy.perform (.intern payload)
  have released := interned.perform (.release index)
  refine ⟨(pool.perform (.intern payload)).perform (.release index), ?_, ?_⟩
  · change (pool.perform (.intern payload)).release index = _
    rw [release_ok_iff]
    exact ⟨isHeld_intern pool payload, rfl⟩
  · apply released.trimmed.ext tidy.trimmed
    intro other
    change ((pool.perform (.intern payload)).perform (.release index)).slotAt other
      = pool.slotAt other
    rw [slotAt_release, slotAt_intern]
    by_cases own : other = index
    · rw [if_pos own, if_pos own]
      exact dropLink_intern (tidy.linked other) payload
    · rw [if_neg own, if_neg own]

def releaseAll (indices : List Nat) (pool : Pool α) : Except Breach (Pool α) :=
  indices.foldlM release pool

omit [Internable α] in
theorem releaseAll_cons_ok_iff (index : Nat) (rest : List Nat) (pool after : Pool α) :
    releaseAll (index :: rest) pool = .ok after
      ↔ ∃ next, pool.release index = .ok next ∧ releaseAll rest next = .ok after := by
  rw [releaseAll, List.foldlM_cons]
  cases released : pool.release index with
  | error breach => simp [bind, Except.bind]
  | ok next => simp [bind, Except.bind, releaseAll]

theorem Tidy.release_swap (tidy : pool.Tidy) {first second : Nat} {next after : Pool α}
    (earlier : pool.release first = .ok next) (later : next.release second = .ok after) :
    ∃ other, pool.release second = .ok other ∧ other.release first = .ok after := by
  by_cases same : first = second
  · subst same
    exact ⟨next, earlier, later⟩
  · rw [release_ok_iff] at earlier later
    obtain ⟨firstHeld, rfl⟩ := earlier
    obtain ⟨secondHeld, rfl⟩ := later
    let other := pool.perform (.release second)
    have untouched : other.slotAt first = pool.slotAt first := by
      rw [slotAt_release, if_neg same]
    have accepted : pool.release second = .ok other := by
      rw [release_ok_iff]
      rw [isHeld_iff, slotAt_release, if_neg (Ne.symm same), ← isHeld_iff] at secondHeld
      exact ⟨secondHeld, rfl⟩
    have follows : other.release first = .ok (other.perform (.release first)) := by
      rw [release_ok_iff, isHeld_iff, untouched, ← isHeld_iff]
      exact ⟨firstHeld, rfl⟩
    refine ⟨other, accepted, ?_⟩
    rw [follows]
    congr 1
    have oneWay := (tidy.perform (.release second)).perform (.release first)
    have otherWay := (tidy.perform (.release first)).perform (.release second)
    apply oneWay.ext otherWay
    · simp [perform_release_settings]
    · simp [perform_release_settings]
    · simp [perform_release_settings]
    · intro index
      simp only [slotAt_release]
      by_cases atFirst : index = first
      · simp [atFirst, same]
      · simp [atFirst]

theorem Tidy.release (tidy : pool.Tidy) {index : Nat} {after : Pool α}
    (accepted : pool.release index = .ok after) : after.Tidy := by
  rw [release_ok_iff] at accepted
  rw [← accepted.2]
  exact tidy.perform (.release index)

theorem Tidy.releaseAll_perm (tidy : pool.Tidy) {indices others : List Nat}
    (moved : indices.Perm others) {after : Pool α} (accepted : releaseAll indices pool = .ok after) :
    releaseAll others pool = .ok after := by
  induction moved generalizing pool with
  | nil => exact accepted
  | cons index _ ih =>
      rw [releaseAll_cons_ok_iff] at accepted ⊢
      obtain ⟨next, released, rest⟩ := accepted
      exact ⟨next, released, ih (tidy.release released) rest⟩
  | swap second first rest =>
      simp only [releaseAll_cons_ok_iff] at accepted ⊢
      obtain ⟨next, earlier, middle, later, remaining⟩ := accepted
      obtain ⟨other, sooner, follows⟩ := tidy.release_swap earlier later
      exact ⟨other, sooner, middle, follows, remaining⟩
  | trans _ _ firstMoves secondMoves => exact secondMoves tidy (firstMoves tidy accepted)

end Releasing

/-- What releases do from a state on: they undo interns, and their order does not matter. -/
structure Reversible [Internable α] (pool : Pool α) : Prop where
  undone : ∀ payload, ∃ after,
    (pool.intern payload).2.release (pool.intern payload).1 = .ok after ∧ after.slots = pool.slots
  reordered : ∀ indices others after, indices.Perm others → releaseAll indices pool = .ok after →
    ∃ again, releaseAll others pool = .ok again ∧ again.slots = after.slots

theorem Tidy.reversible [Internable α] {pool : Pool α} (tidy : pool.Tidy) : pool.Reversible where
  undone := tidy.release_intern
  reordered := fun _ _ after moved accepted => ⟨after, tidy.releaseAll_perm moved accepted, rfl⟩

end Pool

/-- In every state of every pool, whatever its payloads are, a release undoes an intern, and releases
lead to the same slots in every order. -/
theorem releases_undo_and_commute (label : String) (chunk : Nat) :
    (∀ (α : Type) [Internable α] (calls : List (Pool.Call α)),
        ((Pool.empty label chunk).performAll calls).Reversible)
      ∧ (∀ calls, (Pool.performAll calls (Constants.new chunk)).Reversible)
      ∧ ∀ calls, (Pool.performAll calls (Literals.new chunk)).Reversible := by
  refine ⟨?_, ?_, ?_⟩
  · intro α _ calls
    exact ((Pool.empty_tidy label chunk).performAll calls).reversible
  · intro calls
    have kept := (Constants.new_kept chunk).performAll calls
    exact Pool.Tidy.reversible ⟨kept.linked, kept.trimmed⟩
  · intro calls
    have kept := (Literals.new_kept chunk).performAll calls
    exact Pool.Tidy.reversible ⟨kept.linked, kept.trimmed⟩

end Calculator
