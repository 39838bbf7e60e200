import Calculator.Pool.Constants
import Calculator.Pool.Literals
import Mathlib.Data.List.DropRight

/-!
# Pools over whole runs

A call on a pool changes one slot at most, so a pool is followed by what happens to the slot of a
call. Trimming is not seen in the slots: an index past the top reads as a vacant slot. Whatever calls
are made, held slots have links and different contents, the top slot is held, and the slots that a pool
started with are there.
-/

namespace Calculator

/-- The two tests of a pool together tell payloads of equal content from all others. -/
class Faithful (α : Type) [Internable (Payload α)] : Prop where
  matches_iff : ∀ left right : Payload α,
    (!Internable.rejects left right && Internable.same left right) = true
      ↔ left.content = right.content

instance : Faithful Number where
  matches_iff left right := by
    simp only [Internable.rejects, Internable.same, Bool.and_eq_true, Bool.not_eq_true', bne_eq_false_iff_eq,
      beq_iff_eq, and_iff_right_iff_imp]
    intro equal
    rw [equal]

instance : Faithful Bytes where
  matches_iff left right := by
    simp only [Internable.rejects, Internable.same, Bool.and_eq_true, Bool.not_eq_true', Bool.or_eq_false_iff,
      bne_eq_false_iff_eq, beq_iff_eq, and_iff_right_iff_imp]
    intro equal
    rw [equal]
    exact ⟨rfl, rfl⟩

namespace Pool

variable {α : Type}

def slotAt (pool : Pool α) (index : Nat) : Slot α :=
  pool.slots[index]?.getD .vacant

theorem isHeld_eq (pool : Pool α) (index : Nat) :
    pool.isHeld index = !(pool.slotAt index).isVacant := by
  rw [isHeld, slotAt]
  cases pool.slots[index]? <;> rfl

theorem isHeld_iff (pool : Pool α) (index : Nat) :
    pool.isHeld index = true ↔ pool.slotAt index ≠ .vacant := by
  rw [isHeld_eq]
  cases pool.slotAt index <;> simp [Slot.isVacant]

theorem not_isHeld_iff (pool : Pool α) (index : Nat) :
    pool.isHeld index = false ↔ pool.slotAt index = .vacant := by
  rw [isHeld_eq]
  cases pool.slotAt index <;> simp [Slot.isVacant]

theorem get_ok_iff (pool : Pool α) (index : Nat) (payload : α) :
    pool.get index = .ok payload ↔ (pool.slotAt index).payload? = some payload := by
  rw [get, slotAt]
  cases pool.slots[index]? with
  | none => simp [Slot.payload?]
  | some slot => cases slot <;> simp [Slot.payload?]

theorem links_of_inside {pool : Pool α} {index : Nat} (inside : index < pool.size) :
    pool.links index = .ok (pool.slotAt index).links := by
  rw [links, slotAt, List.getElem?_eq_getElem inside]
  rfl

theorem inside_of_held {pool : Pool α} {index : Nat} (held : pool.slotAt index ≠ .vacant) :
    index < pool.size := by
  rw [slotAt] at held
  by_contra outside
  rw [List.getElem?_eq_none (Nat.le_of_not_lt outside)] at held
  exact held rfl

theorem mem_of_inside {pool : Pool α} {index : Nat} (inside : index < pool.size) :
    pool.slotAt index ∈ pool.slots := by
  rw [slotAt, List.getElem?_eq_getElem inside]
  exact List.getElem_mem inside

/-- What a program can ask of a pool. -/
inductive Call (α : Type) where
  | intern (payload : α)
  | link (index : Nat)
  | release (index : Nat)

/-- The pool after a call. A call that is refused changes nothing. -/
def perform [Internable α] (pool : Pool α) : Call α → Pool α
  | .intern payload => (pool.intern payload).2
  | .link index => (pool.link index).toOption.getD pool
  | .release index => (pool.release index).toOption.getD pool

def performAll [Internable α] (calls : List (Call α)) (pool : Pool α) : Pool α :=
  calls.foldl perform pool

namespace Call

/-- The slot that a call is about. -/
def index [Internable α] (pool : Pool α) : Call α → Nat
  | intern payload => (pool.intern payload).1
  | link index => index
  | release index => index

/-- What a call does to its slot. -/
def change : Call α → Slot α → Slot α
  | intern payload, .vacant => .held payload 1 false
  | intern _, slot => slot.addLink
  | link _, slot => slot.addLink
  | release _, slot => slot.dropLink

theorem change_links {call : Call α} {slot : Slot α} (linked : slot.isVacant = false → 1 ≤ slot.links)
    (held : (call.change slot).isVacant = false) : 1 ≤ (call.change slot).links := by
  cases slot with
  | vacant => cases call <;> simp_all [change, Slot.isVacant, Slot.links, Slot.addLink, Slot.dropLink]
  | held payload links pinned =>
      have before : 1 ≤ links := linked rfl
      cases call with
      | intern _ => exact Nat.le_add_left 1 links
      | link _ => exact Nat.le_add_left 1 links
      | release _ =>
          cases pinned with
          | true => exact Nat.le_max_right _ _
          | false =>
              by_cases last : links ≤ 1
              · simp [change, Slot.dropLink, last, Slot.isVacant] at held
              · simp only [change, Slot.dropLink, last, if_false, Slot.links]
                omega

/-- A payload in the slot after a call was there before, or the call has just stored it. -/
theorem payload_of_change {call : Call α} {slot : Slot α} {payload : α}
    (after : (call.change slot).payload? = some payload) :
    slot.payload? = some payload ∨ slot = .vacant ∧ call = .intern payload := by
  cases slot with
  | vacant =>
      cases call with
      | intern stored =>
          cases after
          exact .inr ⟨rfl, rfl⟩
      | link _ => cases after
      | release _ => cases after
  | held stored links pinned =>
      left
      cases call with
      | intern _ => exact after
      | link _ => exact after
      | release _ =>
          cases pinned with
          | true => exact after
          | false =>
              by_cases last : links ≤ 1
              · simp [change, Slot.dropLink, last, Slot.payload?] at after
              · simpa [change, Slot.dropLink, last, Slot.payload?] using after

theorem change_pinned (call : Call α) (payload : α) (links : Nat) :
    ∃ kept, call.change (.held payload links true) = .held payload kept true := by
  cases call with
  | intern _ => exact ⟨links + 1, rfl⟩
  | link _ => exact ⟨links + 1, rfl⟩
  | release _ => exact ⟨max (links - 1) 1, rfl⟩

end Call

section Slots

variable (pool : Pool α)

theorem slotAt_modify (change : Slot α → Slot α) (vacant : change .vacant = .vacant)
    (index other : Nat) :
    ({ pool with slots := pool.slots.modify index change } : Pool α).slotAt other
      = if other = index then change (pool.slotAt other) else pool.slotAt other := by
  rw [slotAt, List.getElem?_modify, slotAt]
  by_cases own : other = index
  · rw [if_pos own]
    cases pool.slots[other]? with
    | none => exact vacant.symm
    | some slot => simp [own]
  · rw [if_neg own]
    cases pool.slots[other]? with
    | none => rfl
    | some slot => simp [Ne.symm own]

theorem slotAt_set {index : Nat} (inside : index < pool.size) (slot : Slot α) (other : Nat) :
    ({ pool with slots := pool.slots.set index slot } : Pool α).slotAt other
      = if other = index then slot else pool.slotAt other := by
  have room : index < pool.slots.length := inside
  rw [slotAt, List.getElem?_set, slotAt]
  by_cases own : other = index
  · rw [if_pos own.symm, if_pos own, if_pos room]
    rfl
  · rw [if_neg (Ne.symm own), if_neg own]

theorem slotAt_push (slot : Slot α) (other : Nat) :
    (pool.push slot).slotAt other = if other = pool.size then slot else pool.slotAt other := by
  rw [slotAt, push, slotAt, size]
  by_cases own : other = pool.slots.length
  · simp [own]
  · rw [if_neg own]
    by_cases below : other < pool.slots.length
    · rw [List.getElem?_append_left below]
    · have beyond : (pool.slots ++ [slot]).length ≤ other := by
        rw [List.length_append, List.length_singleton]
        omega
      rw [List.getElem?_eq_none beyond, List.getElem?_eq_none (Nat.le_of_not_lt below)]

theorem getD_trim (slots : List (Slot α)) (index : Nat) :
    (trim slots)[index]?.getD .vacant = slots[index]?.getD .vacant := by
  have parts : slots = trim slots ++ (slots.reverse.takeWhile Slot.isVacant).reverse := by
    rw [trim, ← List.reverse_append, List.takeWhile_append_dropWhile, List.reverse_reverse]
  by_cases below : index < (trim slots).length
  · rw [parts, List.getElem?_append_left below, ← parts]
  · rw [List.getElem?_eq_none (Nat.le_of_not_lt below)]
    cases found : slots[index]? with
    | none => rfl
    | some slot =>
        rw [parts, List.getElem?_append_right (Nat.le_of_not_lt below)] at found
        have dropped : slot ∈ slots.reverse.takeWhile Slot.isVacant :=
          List.mem_reverse.mp (List.mem_of_getElem? found)
        have vacant := List.mem_takeWhile_imp dropped
        cases slot with
        | vacant => rfl
        | held _ _ _ => cases vacant

end Slots

variable [Internable α]

theorem matches_held {slot : Slot α} {wanted : α} (found : slot.matchesPayload wanted = true) :
    slot ≠ .vacant := by
  rintro rfl
  cases found

/-- Interning links a slot that matches, or stores in the lowest vacant slot, or at the top. -/
theorem intern_cases (pool : Pool α) (wanted : α) :
    (∃ index, (pool.slotAt index).matchesPayload wanted = true
      ∧ pool.intern wanted
        = (index, { pool with slots := pool.slots.modify index Slot.addLink }))
    ∨ (∀ index, (pool.slotAt index).matchesPayload wanted = false)
      ∧ ((∃ index < pool.size, pool.slotAt index = .vacant
          ∧ (∀ lower < index, pool.slotAt lower ≠ .vacant)
          ∧ pool.intern wanted
            = (index, { pool with slots := pool.slots.set index (.held wanted 1 false) }))
        ∨ (∀ index < pool.size, pool.slotAt index ≠ .vacant)
          ∧ pool.intern wanted = (pool.size, pool.push (.held wanted 1 false))) := by
  have reading {index : Nat} (inside : index < pool.slots.length) :
      pool.slotAt index = pool.slots[index] := by
    rw [slotAt, List.getElem?_eq_getElem inside]
    rfl
  have vacancy (slot : Slot α) : slot.isVacant = true ↔ slot = .vacant := by
    cases slot <;> simp [Slot.isVacant]
  rw [intern]
  cases matched : pool.slots.findIdx? (Slot.matchesPayload wanted) with
  | some index =>
      obtain ⟨inside, found, _⟩ := List.findIdx?_eq_some_iff_getElem.mp matched
      exact .inl ⟨index, by rwa [reading inside], rfl⟩
  | none =>
      right
      have missed := List.findIdx?_eq_none_iff.mp matched
      constructor
      · intro index
        by_cases inside : index < pool.slots.length
        · exact missed _ (mem_of_inside inside)
        · rw [slotAt, List.getElem?_eq_none (Nat.le_of_not_lt inside)]
          rfl
      · cases emptied : pool.slots.findIdx? Slot.isVacant with
        | some index =>
            obtain ⟨inside, empty, lowest⟩ := List.findIdx?_eq_some_iff_getElem.mp emptied
            refine .inl ⟨index, inside, ?_, ?_, rfl⟩
            · rw [reading inside]
              exact (vacancy _).mp empty
            · intro lower below
              rw [reading (Nat.lt_trans below inside), Ne, ← vacancy]
              exact lowest lower below
        | none =>
            refine .inr ⟨?_, rfl⟩
            intro index inside
            have full := List.findIdx?_eq_none_iff.mp emptied _ (mem_of_inside inside)
            rw [Ne, ← vacancy, full]
            exact Bool.false_ne_true

theorem slotAt_perform (pool : Pool α) (call : Call α) (other : Nat) :
    (pool.perform call).slotAt other
      = if other = call.index pool then call.change (pool.slotAt other) else pool.slotAt other := by
  have refused {index : Nat} {error : Breach} (missing : pool.get index = .error error) :
      pool.slotAt index = .vacant := by
    cases slot : pool.slotAt index with
    | vacant => rfl
    | held payload links pinned =>
        rw [(pool.get_ok_iff index payload).mpr (by rw [slot]; rfl)] at missing
        cases missing
  cases call with
  | intern wanted =>
      rw [perform, Call.index]
      rcases pool.intern_cases wanted with
        ⟨index, found, interned⟩ | ⟨_, ⟨index, inside, empty, _, interned⟩ | ⟨_, interned⟩⟩
      · rw [interned, slotAt_modify _ _ rfl]
        by_cases own : other = index
        · rw [if_pos own, if_pos own, own]
          cases slot : pool.slotAt index with
          | vacant => exact absurd slot (matches_held found)
          | held _ _ _ => rfl
        · rw [if_neg own, if_neg own]
      · rw [interned, slotAt_set _ inside]
        by_cases own : other = index
        · rw [if_pos own, if_pos own, own, empty]
          rfl
        · rw [if_neg own, if_neg own]
      · rw [interned, slotAt_push]
        by_cases own : other = pool.size
        · have beyond : pool.slotAt pool.size = .vacant := by
            by_contra held
            exact Nat.lt_irrefl _ (inside_of_held held)
          rw [if_pos own, if_pos own, own, beyond]
          rfl
        · rw [if_neg own, if_neg own]
  | link index =>
      rw [perform, Call.index, link]
      cases found : pool.get index with
      | error _ =>
          by_cases own : other = index
          · rw [if_pos own, own, refused found]
            exact refused found
          · rw [if_neg own]
            rfl
      | ok _ => exact slotAt_modify pool Slot.addLink rfl index other
  | release index =>
      rw [perform, Call.index, release]
      cases found : pool.get index with
      | error _ =>
          by_cases own : other = index
          · rw [if_pos own, own, refused found]
            exact refused found
          · rw [if_neg own]
            rfl
      | ok _ =>
          refine Eq.trans ?_ (slotAt_modify pool Slot.dropLink rfl index other)
          simp only [bind, Except.bind, pure, Except.pure, Except.toOption, Option.getD_some, slotAt]
          split
          · exact getD_trim _ other
          · rfl

theorem perform_linked {pool : Pool α}
    (linked : ∀ index, (pool.slotAt index).isVacant = false → 1 ≤ (pool.slotAt index).links)
    (call : Call α) (index : Nat) (held : ((pool.perform call).slotAt index).isVacant = false) :
    1 ≤ ((pool.perform call).slotAt index).links := by
  rw [slotAt_perform] at held ⊢
  by_cases own : index = call.index pool
  · rw [if_pos own] at held ⊢
    exact Call.change_links (linked index) held
  · rw [if_neg own] at held ⊢
    exact linked index held

def Trimmed (slots : List (Slot α)) : Prop :=
  ∀ slot, slots.getLast? = some slot → slot.isVacant = false

omit [Internable α] in
theorem trim_trimmed (slots : List (Slot α)) : Trimmed (trim slots) := by
  intro slot last
  have same : trim slots = slots.rdropWhile Slot.isVacant := rfl
  rw [same] at last
  have nonempty : slots.rdropWhile Slot.isVacant ≠ [] := by
    intro empty
    rw [empty] at last
    cases last
  have held := List.rdropWhile_last_not Slot.isVacant slots nonempty
  rw [List.getLast?_eq_some_getLast nonempty] at last
  cases last
  exact Bool.eq_false_iff.mpr held

omit [Internable α] in
theorem Trimmed.modify {slots : List (Slot α)} (trimmed : Trimmed slots) {index : Nat}
    {change : Slot α → Slot α}
    (kept : index + 1 = slots.length → ∀ slot, slot.isVacant = false → (change slot).isVacant = false) :
    Trimmed (slots.modify index change) := by
  intro slot last
  rw [List.getLast?_eq_getElem?, List.length_modify, List.getElem?_modify] at last
  rw [Trimmed, List.getLast?_eq_getElem?] at trimmed
  cases found : slots[slots.length - 1]? with
  | none =>
      rw [found] at last
      cases last
  | some top =>
      have before := trimmed top found
      have inside := (List.getElem?_eq_some_iff.mp found).1
      rw [found] at last
      simp only [Option.map_eq_map, Option.map_some, Option.some.injEq] at last
      by_cases own : index = slots.length - 1
      · rw [if_pos own] at last
        rw [← last]
        exact kept (by omega) top before
      · rw [if_neg own] at last
        rwa [← last]

theorem perform_trimmed {pool : Pool α} (trimmed : Trimmed pool.slots) (call : Call α) :
    Trimmed (pool.perform call).slots := by
  have linked {index : Nat} : Trimmed (pool.slots.modify index Slot.addLink) := by
    apply trimmed.modify
    intro _ slot held
    cases slot with
    | vacant => cases held
    | held _ _ _ => rfl
  cases call with
  | intern wanted =>
      rw [perform]
      rcases pool.intern_cases wanted with
        ⟨index, _, interned⟩ | ⟨_, ⟨index, inside, _, _, interned⟩ | ⟨_, interned⟩⟩
      · rw [interned]
        exact linked
      · rw [interned]
        intro slot last
        rw [List.getLast?_eq_getElem?, List.length_set, List.getElem?_set] at last
        by_cases own : index = pool.slots.length - 1
        · rw [if_pos own, if_pos (show index < pool.slots.length from inside)] at last
          cases last
          rfl
        · rw [if_neg own] at last
          exact trimmed slot (by rw [List.getLast?_eq_getElem?]; exact last)
      · rw [interned]
        intro slot last
        rw [push, List.getLast?_concat] at last
        cases last
        rfl
  | link index =>
      rw [perform, link]
      cases pool.get index with
      | error _ => exact trimmed
      | ok _ => exact linked
  | release index =>
      rw [perform, release]
      cases pool.get index with
      | error _ => exact trimmed
      | ok _ =>
          simp only [bind, Except.bind, pure, Except.pure, Except.toOption, Option.getD_some]
          split
          · exact trim_trimmed _
          · rename_i below
            rw [List.length_modify] at below
            exact trimmed.modify fun top => absurd top below

end Pool

namespace Pool

variable {α : Type} [Internable (Payload α)]

/-- What every run keeps, slot by slot. The pool started with `standing` in pinned slots. -/
structure Kept (standing : List (Payload α)) (pool : Pool (Payload α)) : Prop where
  linked : ∀ index, (pool.slotAt index).isVacant = false → 1 ≤ (pool.slotAt index).links
  distinct : ∀ index other left right, (pool.slotAt index).payload? = some left →
    (pool.slotAt other).payload? = some right → left.content = right.content → index = other
  trimmed : Trimmed pool.slots
  standing : ∀ index payload, standing[index]? = some payload →
    ∃ links, pool.slotAt index = .held payload links true

theorem matchesPayload_iff [Faithful α] {slot : Slot (Payload α)} {wanted : Payload α} :
    slot.matchesPayload wanted = true
      ↔ ∃ payload, slot.payload? = some payload ∧ payload.content = wanted.content := by
  cases slot with
  | vacant => simp [Slot.matchesPayload, Slot.payload?]
  | held payload links pinned =>
      rw [Slot.matchesPayload, Faithful.matches_iff]
      simp [Slot.payload?]

theorem content_ne_of_stored [Faithful α] {pool : Pool (Payload α)} {wanted : Payload α}
    (stored : pool.slotAt (pool.intern wanted).1 = .vacant) {index : Nat} {payload : Payload α}
    (held : (pool.slotAt index).payload? = some payload) : payload.content ≠ wanted.content := by
  intro equal
  have found : (pool.slotAt index).matchesPayload wanted = true :=
    matchesPayload_iff.mpr ⟨payload, held, equal⟩
  rcases pool.intern_cases wanted with ⟨place, matched, interned⟩ | ⟨missed, _⟩
  · rw [interned] at stored
    exact matches_held matched stored
  · rw [missed index] at found
    cases found

theorem Kept.perform [Faithful α] {standing : List (Payload α)} {pool : Pool (Payload α)}
    (kept : pool.Kept standing) (call : Call (Payload α)) : (pool.perform call).Kept standing where
  linked := perform_linked kept.linked call
  distinct := by
    -- A slot that was filled just now holds what no other slot held.
    have before {index : Nat} {payload : Payload α}
        (after : ((pool.perform call).slotAt index).payload? = some payload) :
        (pool.slotAt index).payload? = some payload
          ∨ index = call.index pool ∧ pool.slotAt index = .vacant ∧ call = .intern payload := by
      rw [slotAt_perform] at after
      by_cases own : index = call.index pool
      · rw [if_pos own] at after
        rcases Call.payload_of_change after with same | ⟨empty, filled⟩
        · exact .inl same
        · exact .inr ⟨own, empty, filled⟩
      · rw [if_neg own] at after
        exact .inl after
    intro index other left right atIndex atOther equal
    rcases before atIndex with first | ⟨own, empty, filled⟩
    · rcases before atOther with second | ⟨own, empty, filled⟩
      · exact kept.distinct index other left right first second equal
      · subst filled own
        exact absurd equal (content_ne_of_stored empty first)
    · rcases before atOther with second | ⟨also, _, _⟩
      · subst filled own
        exact absurd equal.symm (content_ne_of_stored empty second)
      · rw [own, also]
  trimmed := perform_trimmed kept.trimmed call
  standing := by
    intro index payload stands
    obtain ⟨links, slot⟩ := kept.standing index payload stands
    rw [slotAt_perform, slot]
    split
    · exact call.change_pinned payload links
    · exact ⟨links, rfl⟩

theorem Kept.performAll [Faithful α] {standing : List (Payload α)} {pool : Pool (Payload α)}
    (kept : pool.Kept standing) (calls : List (Call (Payload α))) :
    (pool.performAll calls).Kept standing := by
  induction calls generalizing pool with
  | nil => exact kept
  | cons call rest ih => exact ih (kept.perform call)

/-- What every run keeps, as a program sees it. -/
structure Sound (standing : List (Payload α)) (pool : Pool (Payload α)) : Prop where
  held : ∀ index, pool.isHeld index = true →
    ∃ payload links, pool.get index = .ok payload ∧ pool.links index = .ok links ∧ 1 ≤ links
  vacant : ∀ index < pool.size, pool.isHeld index = false →
    pool.links index = .ok 0 ∧ ∀ payload, pool.get index ≠ .ok payload
  distinct : ∀ index other left right, pool.get index = .ok left → pool.get other = .ok right →
    left.content = right.content → index = other
  trimmed : pool.size = 0 ∨ pool.isHeld (pool.size - 1) = true
  standing : ∀ index payload, standing[index]? = some payload → pool.get index = .ok payload
  released : ∀ index after, pool.release index = .ok after →
    ∃ links, pool.links index = .ok links ∧ 1 ≤ links

omit [Internable (Payload α)] in
theorem Kept.sound {standing : List (Payload α)} {pool : Pool (Payload α)}
    (kept : pool.Kept standing) : pool.Sound standing := by
  have held {index : Nat} {payload : Payload α} {links : Nat} {pinned : Bool}
      (slot : pool.slotAt index = .held payload links pinned) :
      pool.get index = .ok payload ∧ pool.links index = .ok links ∧ 1 ≤ links := by
    have inside : index < pool.size := inside_of_held (by simp [slot])
    have linked := kept.linked index (by rw [slot]; rfl)
    rw [slot] at linked
    rw [get_ok_iff, links_of_inside inside, slot]
    exact ⟨rfl, rfl, linked⟩
  constructor
  case held =>
    intro index found
    rw [isHeld_eq] at found
    cases slot : pool.slotAt index with
    | vacant =>
        rw [slot] at found
        cases found
    | held payload links pinned => exact ⟨payload, links, held slot⟩
  case vacant =>
    intro index inside empty
    rw [isHeld_eq] at empty
    cases slot : pool.slotAt index with
    | vacant =>
        refine ⟨by rw [links_of_inside inside, slot]; rfl, ?_⟩
        intro payload
        rw [Ne, get_ok_iff, slot]
        exact Option.some_ne_none payload ∘ Eq.symm
    | held payload links pinned =>
        rw [slot] at empty
        cases empty
  case distinct =>
    intro index other left right atIndex atOther
    rw [get_ok_iff] at atIndex atOther
    exact kept.distinct index other left right atIndex atOther
  case trimmed =>
    by_cases empty : pool.size = 0
    · exact .inl empty
    · right
      have inside : pool.slots.length - 1 < pool.slots.length :=
        Nat.sub_lt (Nat.pos_of_ne_zero empty) Nat.one_pos
      have top := kept.trimmed (pool.slotAt (pool.size - 1)) (by
        rw [List.getLast?_eq_getElem?, slotAt, size, List.getElem?_eq_getElem inside]
        rfl)
      rw [isHeld_eq, top]
      rfl
  case standing =>
    intro index payload stands
    obtain ⟨links, slot⟩ := kept.standing index payload stands
    exact (held slot).1
  case released =>
    intro index after accepted
    cases found : pool.get index with
    | error _ =>
        rw [release, found] at accepted
        cases accepted
    | ok payload =>
        rw [get_ok_iff] at found
        cases slot : pool.slotAt index with
        | vacant =>
            rw [slot] at found
            cases found
        | held stored links pinned => exact ⟨links, (held slot).2⟩

omit [Internable (Payload α)] in
theorem Kept.start {standing : List (Payload α)} {pool : Pool (Payload α)}
    (slots : pool.slots = standing.map fun payload => .held payload 1 true)
    (distinct : (standing.map Payload.content).Nodup) : pool.Kept standing := by
  have reads (index : Nat) :
      pool.slotAt index = (standing[index]?.map fun payload => .held payload 1 true).getD .vacant := by
    rw [slotAt, slots, List.getElem?_map]
  have stored {index : Nat} {payload : Payload α}
      (held : (pool.slotAt index).payload? = some payload) : standing[index]? = some payload := by
    rw [reads] at held
    cases found : standing[index]? with
    | none =>
        rw [found] at held
        cases held
    | some first =>
        rw [found] at held
        exact held
  constructor
  case linked =>
    intro index held
    rw [reads] at held ⊢
    cases found : standing[index]? with
    | none =>
        rw [found] at held
        cases held
    | some _ => exact Nat.le_refl 1
  case distinct =>
    intro index other left right atIndex atOther equal
    have first := stored atIndex
    have second := stored atOther
    have inside : index < (standing.map Payload.content).length := by
      rw [List.length_map]
      exact (List.getElem?_eq_some_iff.mp first).1
    apply (List.getElem?_inj inside distinct).mp
    rw [List.getElem?_map, List.getElem?_map, first, second]
    exact congrArg some equal
  case trimmed =>
    intro slot last
    rw [slots, List.getLast?_map] at last
    obtain ⟨payload, _, rfl⟩ := Option.map_eq_some_iff.mp last
    rfl
  case standing =>
    intro index payload stands
    refine ⟨1, ?_⟩
    rw [reads, stands]
    rfl

end Pool

def Constants.standing : List (Payload Number) :=
  [0, 1, 2, 3, 4, 5, 10, 20].mapIdx fun index value =>
    { content := Number.ofInt value, mark := some index }

def Literals.standing : List (Payload Bytes) :=
  [{ content := [], mark := some 0 }]

theorem Constants.new_kept (chunk : Nat) : (Constants.new chunk).Kept Constants.standing :=
  Pool.Kept.start rfl (by decide)

theorem Literals.new_kept (chunk : Nat) : (Literals.new chunk).Kept Literals.standing :=
  Pool.Kept.start rfl (by decide)

theorem Pool.empty_kept {α : Type} (label : String) (chunk : Nat) :
    (Pool.empty label chunk : Pool (Payload α)).Kept [] :=
  Pool.Kept.start rfl List.nodup_nil

/-- Pools are sound after any calls, whichever way they are started. -/
theorem pools_stay_sound (label : String) (chunk : Nat) :
    (∀ calls, ((Pool.empty label chunk : Pool (Payload Bytes)).performAll calls).Sound [])
      ∧ (∀ calls, ((Pool.empty label chunk : Pool (Payload Number)).performAll calls).Sound [])
      ∧ (∀ calls, (Pool.performAll calls (Constants.new chunk)).Sound Constants.standing)
      ∧ ∀ calls, (Pool.performAll calls (Literals.new chunk)).Sound Literals.standing := by
  refine ⟨?_, ?_, ?_, ?_⟩
  · intro calls
    exact ((Pool.empty_kept label chunk).performAll calls).sound
  · intro calls
    exact ((Pool.empty_kept label chunk).performAll calls).sound
  · intro calls
    exact ((Constants.new_kept chunk).performAll calls).sound
  · intro calls
    exact ((Literals.new_kept chunk).performAll calls).sound

end Calculator
