import Calculator.Proofs.Searches

/-!
# Searching in turns

A search can be run in turns. Forwards, each turn reads one byte and looks at the bytes that were read
last; backwards, each turn goes to a place, reads what the needle would cover there, and steps down by
one. Such loops end, at the start of the file and at its end too, and they answer and leave what a search
does.
-/

namespace Calculator

namespace Transfer

/-- A loop runs its turns from state to state until one of them stops it with an answer. -/
inductive Ends {σ α : Type} (turn : σ → Transfer (σ ⊕ α)) : σ → Channel → α → Channel → Prop
  | stop {state : σ} {before after : Channel} {answer : α}
      (ran : turn state before = (.ok (.inr answer), after)) : Ends turn state before answer after
  | next {state later : σ} {before between after : Channel} {answer : α}
      (ran : turn state before = (.ok (.inl later), between))
      (rest : Ends turn later between answer after) : Ends turn state before answer after

theorem Ends.unique {σ α : Type} {turn : σ → Transfer (σ ⊕ α)} {state : σ} {before : Channel}
    {one other : α} {first second : Channel} (ended : Ends turn state before one first)
    (again : Ends turn state before other second) : one = other ∧ first = second := by
  induction ended with
  | stop ran =>
      cases again with
      | stop same =>
          rw [ran] at same
          cases same
          exact ⟨rfl, rfl⟩
      | next same rest =>
          rw [ran] at same
          cases same
  | next ran _ ih =>
      cases again with
      | stop same =>
          rw [ran] at same
          cases same
      | next same rest =>
          rw [ran] at same
          cases same
          exact ih rest

/-- A turn of a backward search: it tries a place, and steps down to the one below. -/
def tryTurn (needle : Bytes) (last place : Nat) : Transfer (Nat ⊕ Option Nat) := do
  if place < last then
    seek last
    return .inr none
  seek place
  let seen ← readBytes needle.length
  if seen = needle then return .inr (some place)
  if place = 0 then
    seek last
    return .inr none
  return .inl (place - 1)

def slide (length : Nat) (window : Bytes) (byte : UInt8) : Bytes :=
  (if window.length = length then window.tail else window) ++ [byte]

/-- A turn of a forward search: it reads a byte, and keeps as many of the last bytes as the needle has. -/
def scanTurn (needle : Bytes) (finish : Nat) (state : Bytes × Nat) :
    Transfer ((Bytes × Nat) ⊕ Option Nat) := do
  match ← readByte with
  | none => return .inr none
  | some byte =>
      let window := slide needle.length state.1 byte
      let next := state.2 + 1
      if window.length < needle.length then return .inl (window, next)
      else if finish ≤ next - needle.length then return .inr none
      else if window = needle then return .inr (some (next - needle.length))
      else return .inl (window, next)

variable {channel origin flushed : Channel} {descriptor : Descriptor} {content : Content}
  {needle : Bytes}

section Tries

variable {first last : Nat}
  (free : ∀ target, (origin.moved target).Placed origin descriptor content target)
  (moves : ∀ target, target ≤ Content.maxSize → seek target channel = (.ok (), origin.moved target))

include moves

theorem tryTurn_below (bounded : last ≤ Content.maxSize) (below : first < last) :
    tryTurn needle last first channel = (.ok (.inr none), backEnd needle last origin none) := by
  unfold tryTurn
  rw [if_pos below, Effect.bind_ok (moves last bounded)]
  rfl

include free

/-- A try stops where the needle stands, and else at the start; or it goes on one place below. -/
theorem tryTurn_run (needle : Bytes) (inside : first ≤ Content.maxSize) (ordered : last ≤ first) :
    ∃ after, (∀ target, target ≤ Content.maxSize → seek target after = (.ok (), origin.moved target))
      ∧ tryTurn needle last first channel
        = if Bytes.leads needle (content.toBytes.drop first) then
            (.ok (.inr (some first)), backEnd needle last origin (some first))
          else if first = 0 then (.ok (.inr none), backEnd needle last origin none)
          else (.ok (.inl (first - 1)), after) := by
  obtain ⟨after, read, reached⟩ := readBytes_placed (free first) needle.length
  have onward (target : Nat) (inside : target ≤ Content.maxSize) :
      seek target after = (.ok (), origin.moved target) := by
    rw [seek_placed reached inside, reached.kept]
  refine ⟨after, onward, ?_⟩
  unfold tryTurn
  rw [if_neg (Nat.not_lt.mpr ordered), Effect.bind_ok (moves first inside), Effect.bind_ok read]
  by_cases stands : Bytes.leads needle (content.toBytes.drop first) = true
  · rw [if_pos stands, if_pos ((Bytes.leads_iff _ _).mp stands), backEnd, skip_run read]
    rfl
  · rw [if_neg stands, if_neg (stands ∘ (Bytes.leads_iff _ _).mpr)]
    by_cases start : first = 0
    · rw [if_pos start, if_pos start, Effect.bind_ok (onward last (Nat.le_trans ordered inside))]
      rfl
    · rw [if_neg start, if_neg start]
      rfl

theorem tries_end (inside : first ≤ Content.maxSize) (bounded : last ≤ Content.maxSize) :
    Ends (tryTurn needle last) first channel (PlainFile.lastPlace? needle content.toBytes first last)
      (backEnd needle last origin (PlainFile.lastPlace? needle content.toBytes first last)) := by
  induction first generalizing channel with
  | zero =>
      rcases Nat.lt_or_ge 0 last with below | ordered
      · rw [PlainFile.lastPlace?_below _ _ below]
        exact .stop (tryTurn_below moves bounded below)
      · obtain ⟨_, _, ran⟩ := tryTurn_run free moves needle inside ordered
        rw [PlainFile.lastPlace?_step _ _ ordered]
        by_cases stands : Bytes.leads needle (content.toBytes.drop 0) = true
        · rw [if_pos stands] at ran ⊢
          exact .stop ran
        · rw [if_neg stands, if_pos rfl] at ran ⊢
          exact .stop ran
  | succ lower ih =>
      rcases Nat.lt_or_ge (lower + 1) last with below | ordered
      · rw [PlainFile.lastPlace?_below _ _ below]
        exact .stop (tryTurn_below moves bounded below)
      · obtain ⟨_, onward, ran⟩ := tryTurn_run free moves needle inside ordered
        rw [PlainFile.lastPlace?_step _ _ ordered]
        by_cases stands : Bytes.leads needle (content.toBytes.drop (lower + 1)) = true
        · rw [if_pos stands] at ran ⊢
          exact .stop ran
        · rw [if_neg stands, if_neg lower.succ_ne_zero] at ran ⊢
          exact .next ran (ih onward (Nat.le_of_succ_le inside))

end Tries

theorem slide_read (read : Bytes) (byte : UInt8) {length : Nat} (positive : 0 < length) :
    slide length (read.drop (read.length - length)) byte
      = (read ++ [byte]).drop (read.length + 1 - length) := by
  rw [slide, List.length_drop]
  by_cases filled : length ≤ read.length
  · rw [if_pos (Nat.sub_sub_self filled), List.tail_drop, List.drop_append_of_le_length (by omega),
      Nat.sub_add_comm filled]
  · rw [if_neg (by omega), Nat.sub_eq_zero_of_le (by omega), Nat.sub_eq_zero_of_le (by omega)]
    rfl

/-- What is skipped in two parts is skipped at once, as long as the first part is there. -/
theorem skip_add {here first : Nat} {between : Channel} (more : Nat)
    (placed : channel.Placed origin descriptor content here)
    (enough : first ≤ content.toBytes.length - here) (ran : skip first channel = (.ok (), between)) :
    skip (first + more) channel = skip more between := by
  induction first generalizing channel here with
  | zero =>
      cases ran
      rw [Nat.zero_add]
  | succ first ih =>
      obtain ⟨middle, read, reached⟩ := readByte_placed placed
      have inside : here < content.toBytes.length := by omega
      have next : (content.toBytes.drop here).head? = some content.toBytes[here] := by
        rw [List.drop_eq_getElem_cons inside, List.head?_cons]
      have one : ((content.toBytes.drop here).take 1).length = 1 := by
        rw [List.length_take, List.length_drop]
        omega
      rw [next] at read
      rw [one] at reached
      have begun : skip (first + 1) channel = skip first middle := Effect.bind_ok read
      rw [begun] at ran
      rw [Nat.add_right_comm]
      have further := ih reached (by omega) ran
      exact (Effect.bind_ok read).trans further

section Scan

variable {start finish next : Nat} {window : Bytes}

/-- A forward search has read from `start` up to `next`. The window is what it read last, and nothing
before `next` matched. -/
structure Scanned (origin channel : Channel) (content : Content) (needle : Bytes)
    (start finish next : Nat) (window : Bytes) : Prop where
  ordered : start ≤ next
  enough : next - start ≤ content.toBytes.length - start
  skipped : skip (next - start) (origin.moved start) = (.ok (), channel)
  window : window
    = ((content.toBytes.drop start).take (next - start)).drop (next - start - needle.length)
  passed : ∀ place, start ≤ place → place + needle.length ≤ next →
    place < finish ∧ Bytes.leads needle (content.toBytes.drop place) = false

theorem Scanned.at_start (start finish : Nat) (nonempty : needle ≠ []) :
    Scanned origin (origin.moved start) content needle start finish start [] where
  ordered := Nat.le_refl start
  enough := by
    rw [Nat.sub_self]
    exact Nat.zero_le _
  skipped := by
    rw [Nat.sub_self]
    rfl
  window := by
    rw [Nat.sub_self, List.take_zero, List.drop_nil]
  passed := by
    intro place later covered
    have wanted : 0 < needle.length := List.length_pos_iff.mpr nonempty
    omega

variable (free : ∀ target, (origin.moved target).Placed origin descriptor content target)
  (scanned : Scanned origin channel content needle start finish next window)

include free scanned

theorem Scanned.placed : channel.Placed origin descriptor content next := by
  have reached := (skip_placed (free start) start (next - start)).2
  rw [scanned.skipped, Nat.min_eq_left scanned.enough, Nat.add_sub_cancel' scanned.ordered] at reached
  exact reached

theorem Scanned.further (more : Nat) :
    skip (next - start + more) (origin.moved start) = skip more channel :=
  skip_add more (free start) scanned.enough scanned.skipped

omit free in
theorem Scanned.room (nonempty : needle ≠ []) : next - start < finish - start + needle.length := by
  have wanted : 0 < needle.length := List.length_pos_iff.mpr nonempty
  rcases Nat.lt_or_ge (next - start) needle.length with short | filled
  · omega
  · have before := (scanned.passed (next - needle.length) (by omega) (by omega)).1
    omega

/-- At the end of the file, all that a match could cover was read. -/
theorem scanTurn_ended (nonempty : needle ≠ []) (ended : content.toBytes.drop next = []) :
    PlainFile.firstPlace? needle content.toBytes start finish = none
      ∧ scanTurn needle finish (window, next) channel
        = (.ok (.inr none), searchEnd needle start finish origin none) := by
  obtain ⟨after, read, _⟩ := readByte_placed (scanned.placed free)
  rw [ended, List.head?_nil] at read
  have beyond := List.drop_eq_nil_iff.mp ended
  constructor
  · refine PlainFile.firstPlace?_none fun place later before => ?_
    rcases Nat.lt_or_ge next (place + needle.length) with uncovered | covered
    · exact Bytes.leads_eq_false_of_short nonempty (by omega)
    · exact (scanned.passed place later covered).2
  · have room := scanned.room nonempty
    obtain ⟨more, whole⟩ : ∃ more, finish - start + needle.length = next - start + (more + 1) :=
      ⟨finish - start + needle.length - (next - start) - 1, by omega⟩
    have left : skip (more + 1) channel = (.ok (), after) := Effect.bind_ok read
    rw [searchEnd, whole, scanned.further free, left]
    exact Effect.bind_ok read

/-- A byte that is read enters the window. -/
theorem Scanned.enters (nonempty : needle ≠ []) (inside : next < content.toBytes.length) :
    ∃ after byte, readByte channel = (.ok (some byte), after)
      ∧ skip (next + 1 - start) (origin.moved start) = (.ok (), after)
      ∧ slide needle.length window byte
        = ((content.toBytes.drop start).take (next + 1 - start)).drop
          (next + 1 - start - needle.length) := by
  have wanted : 0 < needle.length := List.length_pos_iff.mpr nonempty
  have ordered := scanned.ordered
  obtain ⟨after, read, _⟩ := readByte_placed (scanned.placed free)
  rw [List.drop_eq_getElem_cons inside, List.head?_cons] at read
  have count : next + 1 - start = next - start + 1 := Nat.sub_add_comm ordered
  have whole : ((content.toBytes.drop start).take (next - start)).length = next - start := by
    rw [List.length_take, List.length_drop, Nat.min_eq_left scanned.enough]
  refine ⟨after, _, read, ?_, ?_⟩
  · rw [count, scanned.further free 1]
    exact Effect.bind_ok read
  · have slid := slide_read ((content.toBytes.drop start).take (next - start))
      content.toBytes[next] wanted
    rw [whole, ← scanned.window] at slid
    have present : next - start < (content.toBytes.drop start).length := by
      rw [List.length_drop]
      omega
    have last : (content.toBytes.drop start)[next - start] = content.toBytes[next] := by
      rw [List.getElem_drop]
      congr 1
      omega
    rw [slid, count, List.take_succ_eq_append_getElem present, last]

/-- A turn that reads a byte stops at the first match or behind the last place, or it goes on. -/
theorem scanTurn_inside (nonempty : needle ≠ []) (inside : next < content.toBytes.length) :
    scanTurn needle finish (window, next) channel
        = (.ok (.inr (PlainFile.firstPlace? needle content.toBytes start finish)),
          searchEnd needle start finish origin
            (PlainFile.firstPlace? needle content.toBytes start finish))
      ∨ ∃ later after, scanTurn needle finish (window, next) channel
          = (.ok (.inl (later, next + 1)), after)
        ∧ Scanned origin after content needle start finish (next + 1) later := by
  have wanted : 0 < needle.length := List.length_pos_iff.mpr nonempty
  have ordered := scanned.ordered
  have room := scanned.room nonempty
  obtain ⟨after, byte, read, skipped, slid⟩ := scanned.enters free nonempty inside
  have held := congrArg List.length slid
  rw [List.length_drop, List.length_take, List.length_drop, Nat.min_eq_left (by omega)] at held
  have onward (passed : ∀ place, start ≤ place → place + needle.length ≤ next + 1 →
      place < finish ∧ Bytes.leads needle (content.toBytes.drop place) = false) :
      Scanned origin after content needle start finish (next + 1)
        (slide needle.length window byte) :=
    ⟨Nat.le_succ_of_le ordered, by omega, skipped, slid, passed⟩
  unfold scanTurn
  rw [Effect.bind_ok read]
  dsimp only
  by_cases short : (slide needle.length window byte).length < needle.length
  · rw [if_pos short]
    refine .inr ⟨_, after, rfl, onward fun place later covered => ?_⟩
    omega
  have filled : needle.length ≤ next + 1 - start := by omega
  rw [if_neg short]
  by_cases beyond : finish ≤ next + 1 - needle.length
  · have none : PlainFile.firstPlace? needle content.toBytes start finish = none := by
      refine PlainFile.firstPlace?_none fun place later before => ?_
      exact (scanned.passed place later (by omega)).2
    have whole : finish - start + needle.length = next + 1 - start := by omega
    rw [if_pos beyond, none, searchEnd, whole, skipped]
    exact .inl rfl
  have candidate : slide needle.length window byte = needle
      ↔ Bytes.leads needle (content.toBytes.drop (next + 1 - needle.length)) = true := by
    rw [Bytes.leads_iff, slid, List.drop_take, List.drop_drop, Nat.sub_sub_self filled,
      show start + (next + 1 - start - needle.length) = next + 1 - needle.length by omega]
  rw [if_neg beyond]
  by_cases matched : slide needle.length window byte = needle
  · have found : PlainFile.firstPlace? needle content.toBytes start finish
        = some (next + 1 - needle.length) := by
      refine PlainFile.firstPlace?_some (by omega) (by omega) (candidate.mp matched) ?_
      intro place later before
      exact (scanned.passed place later (by omega)).2
    have whole : next + 1 - needle.length - start + needle.length = next + 1 - start := by omega
    rw [if_pos matched, found, searchEnd, whole, skipped]
    exact .inl rfl
  · rw [if_neg matched]
    refine .inr ⟨_, after, rfl, onward fun place later covered => ?_⟩
    rcases Nat.lt_or_ge next (place + needle.length) with fresh | old
    · obtain rfl : place = next + 1 - needle.length := by omega
      exact ⟨Nat.lt_of_not_le beyond, Bool.eq_false_iff.mpr (matched ∘ candidate.mpr)⟩
    · exact scanned.passed place later old

/-- From wherever the search has come to, its turns end at the first place where the needle stands. -/
theorem scans_end (nonempty : needle ≠ []) :
    Ends (scanTurn needle finish) (window, next) channel
      (PlainFile.firstPlace? needle content.toBytes start finish)
      (searchEnd needle start finish origin
        (PlainFile.firstPlace? needle content.toBytes start finish)) := by
  -- Each turn that goes on reads one of the bytes that are left.
  induction left : content.toBytes.length - next generalizing channel next window with
  | zero =>
      have ended : content.toBytes.drop next = [] := List.drop_eq_nil_iff.mpr (by omega)
      obtain ⟨none, ran⟩ := scanTurn_ended free scanned nonempty ended
      rw [none]
      exact .stop ran
  | succ rest ih =>
      rcases scanTurn_inside free scanned nonempty (by omega) with ran | ⟨_, _, ran, onward⟩
      · exact .stop ran
      · exact .next ran (ih onward (by omega))

end Scan

section Flushed

variable (ran : flush channel = (.ok (), flushed))
  (opened : flushed.turned.host.open? flushed.turned.stream.descriptor
    = some (descriptor, .file content)) (nonempty : needle ≠ [])

include ran opened nonempty

/-- Reading byte by byte from the start of a forward search ends where the search does. -/
theorem search_in_turns (start finish : Nat) {answer : Option Nat} {after : Channel} :
    Ends (scanTurn needle finish) ([], start) (flushed.turned.moved start) answer after
      ↔ answer = PlainFile.firstPlace? needle content.toBytes start finish
        ∧ after = searchEnd needle start finish flushed.turned answer := by
  have ends : Ends (scanTurn needle finish) ([], start) (flushed.turned.moved start)
      (PlainFile.firstPlace? needle content.toBytes start finish)
      (searchEnd needle start finish flushed.turned
        (PlainFile.firstPlace? needle content.toBytes start finish)) :=
    scans_end (turned_placed ran opened) (.at_start start finish nonempty) nonempty
  constructor
  · intro ended
    obtain ⟨rfl, rfl⟩ := ended.unique ends
    exact ⟨rfl, rfl⟩
  · rintro ⟨rfl, rfl⟩
    exact ends

/-- Trying place by place from `first` down ends where a backward search does. -/
theorem searchBack_in_turns {first last : Nat} (inside : first ≤ Content.maxSize)
    (bounded : last ≤ Content.maxSize) {answer : Option Nat} {after : Channel} :
    Ends (tryTurn needle last) first flushed.turned answer after
      ↔ answer = backAnswer needle content.toBytes first last
        ∧ after = backEnd needle last flushed.turned answer := by
  rw [backAnswer, if_neg nonempty]
  have ends : Ends (tryTurn needle last) first flushed.turned
      (PlainFile.lastPlace? needle content.toBytes first last)
      (backEnd needle last flushed.turned
        (PlainFile.lastPlace? needle content.toBytes first last)) :=
    tries_end (turned_placed ran opened)
      (fun target within => seek_inside opened (turned_nothing ran) within) inside bounded
  constructor
  · intro ended
    obtain ⟨rfl, rfl⟩ := ended.unique ends
    exact ⟨rfl, rfl⟩
  · rintro ⟨rfl, rfl⟩
    exact ends

end Flushed

end Transfer

end Calculator
