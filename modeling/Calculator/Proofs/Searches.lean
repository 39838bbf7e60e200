import Calculator.Proofs.PlacedStreams
import Calculator.Proofs.Reader
import Mathlib.Data.Set.Basic
import Mathlib.Order.Bounds.Defs

/-!
# Searches in a file

A search answers the least, or the greatest, of the places in its range where the needle stands, and
leaves the file behind the match. This holds of every stream on a regular file whose output can be
written, whatever waits in its buffers and whether or not it appends.
-/

namespace Calculator

def Settles (best : Set Nat → Nat → Prop) (places : Set Nat) : Option Nat → Prop
  | some place => best places place
  | none => ∀ place, place ∉ places

abbrev IsFirst : Set Nat → Option Nat → Prop := Settles IsLeast

abbrev IsLast : Set Nat → Option Nat → Prop := Settles IsGreatest

theorem Settles.eq_some {best : Set Nat → Nat → Prop} {places : Set Nat} {found : Option Nat}
    {place : Nat} (settles : Settles best places found) (present : place ∈ places)
    (alone : ∀ other, best places other → other = place) : found = some place := by
  cases found with
  | none => exact absurd present (settles place)
  | some other => rw [alone other settles]

/-- Of places that are listed in an order, the one that is found is the best where coming first in the
order is being the best. -/
theorem find?_settles {best : Set Nat → Nat → Prop} {order : Nat → Nat → Prop} {listed : List Nat}
    (sorted : listed.Pairwise order)
    (beats : ∀ (places : Set Nat) (place : Nat), place ∈ places →
      (∀ other ∈ places, other = place ∨ order place other) → best places place)
    (wanted : Nat → Bool) :
    Settles best {place | place ∈ listed ∧ wanted place = true} (listed.find? wanted) := by
  cases found : listed.find? wanted with
  | none => exact fun place ⟨present, matching⟩ => List.find?_eq_none.mp found place present matching
  | some place =>
      refine beats _ place ⟨List.mem_of_find?_eq_some found, List.find?_some found⟩ ?_
      rintro other ⟨present, matching⟩
      obtain ⟨_, before, behind, rfl, passed⟩ := List.find?_eq_some_iff_append.mp found
      rcases List.mem_append.mp present with earlier | later
      · have unwanted := passed other earlier
        rw [matching] at unwanted
        cases unwanted
      · rcases List.mem_cons.mp later with same | rest
        · exact .inl same
        · have tail := (List.pairwise_append.mp sorted).2.1
          exact .inr ((List.pairwise_cons.mp tail).1 other rest)

namespace PlainFile

theorem leads_iff_prefix (needle bytes : Bytes) : Bytes.leads needle bytes = true ↔ needle <+: bytes := by
  rw [Bytes.leads_iff, List.prefix_iff_eq_take, Eq.comm]

theorem firstPlace?_isFirst (needle content : Bytes) (start finish : Nat) :
    IsFirst {place | start ≤ place ∧ place < finish ∧ needle <+: content.drop place}
      (firstPlace? needle content start finish) := by
  have listed : {place | start ≤ place ∧ place < finish ∧ needle <+: content.drop place}
      = {place | place ∈ List.range' start (finish - start)
          ∧ Bytes.leads needle (content.drop place) = true} := by
    ext place
    simp only [Set.mem_ofPred_eq, List.mem_range'_1, leads_iff_prefix, ← and_assoc]
    refine and_congr_left fun _ => ?_
    omega
  rw [listed]
  refine find?_settles (List.pairwise_lt_range' 1) (fun places place member first => ?_) _
  exact ⟨member, fun other present => (first other present).elim (fun same => Nat.le_of_eq same.symm) Nat.le_of_lt⟩

theorem lastPlace?_isLast (needle content : Bytes) (first last : Nat) :
    IsLast {place | last ≤ place ∧ place ≤ first ∧ needle <+: content.drop place}
      (lastPlace? needle content first last) := by
  have listed : {place | last ≤ place ∧ place ≤ first ∧ needle <+: content.drop place}
      = {place | place ∈ (List.range' last (first + 1 - last)).reverse
          ∧ Bytes.leads needle (content.drop place) = true} := by
    ext place
    simp only [Set.mem_ofPred_eq, List.mem_reverse, List.mem_range'_1, leads_iff_prefix, ← and_assoc]
    refine and_congr_left fun _ => ?_
    omega
  rw [listed]
  refine find?_settles (List.pairwise_reverse.mpr (List.pairwise_lt_range' 1))
    (fun places place member first => ?_) _
  exact ⟨member, fun other present => (first other present).elim Nat.le_of_eq Nat.le_of_lt⟩

theorem lastPlace?_below (needle content : Bytes) {first last : Nat} (below : first < last) :
    lastPlace? needle content first last = none := by
  rw [lastPlace?, Nat.sub_eq_zero_of_le below]
  rfl

theorem lastPlace?_step (needle content : Bytes) {first last : Nat} (ordered : last ≤ first) :
    lastPlace? needle content first last
      = if Bytes.leads needle (content.drop first) then some first
        else if first = 0 then none else lastPlace? needle content (first - 1) last := by
  rw [lastPlace?, show first + 1 - last = (first - last) + 1 by omega, List.range'_1_concat,
    Nat.add_sub_cancel' ordered, List.reverse_append, List.reverse_singleton, List.singleton_append,
    List.find?_cons]
  by_cases stands : Bytes.leads needle (content.drop first) = true
  · rw [if_pos stands, stands]
  · rw [if_neg stands, Bool.eq_false_iff.mpr stands]
    by_cases start : first = 0
    · subst start
      rw [if_pos rfl, Nat.le_zero.mp ordered]
      rfl
    · rw [if_neg start, lastPlace?, show first - 1 + 1 - last = first - last by omega]

theorem firstPlace?_none {needle content : Bytes} {start finish : Nat}
    (nowhere : ∀ place, start ≤ place → place < finish →
      Bytes.leads needle (content.drop place) = false) :
    firstPlace? needle content start finish = none := by
  rw [firstPlace?, List.find?_eq_none]
  intro place listed
  rw [List.mem_range'_1] at listed
  simp [nowhere place listed.1 (by omega)]

theorem firstPlace?_some {needle content : Bytes} {start finish found : Nat} (later : start ≤ found)
    (before : found < finish) (stands : Bytes.leads needle (content.drop found) = true)
    (earlier : ∀ place, start ≤ place → place < found →
      Bytes.leads needle (content.drop place) = false) :
    firstPlace? needle content start finish = some found := by
  rw [firstPlace?, List.find?_range'_eq_some, List.mem_range'_1]
  refine ⟨stands, ⟨later, by omega⟩, fun place after below => ?_⟩
  rw [earlier place after below]
  rfl

theorem firstPlace?_nil (content : Bytes) (start finish : Nat) :
    firstPlace? [] content start finish = if start < finish then some start else none := by
  rw [firstPlace?]
  by_cases room : start < finish
  · obtain ⟨count, more⟩ : ∃ count, finish - start = count + 1 :=
      Nat.exists_eq_add_one.mpr (Nat.sub_pos_of_lt room)
    rw [if_pos room, more, List.range'_succ]
    rfl
  · rw [if_neg room, Nat.sub_eq_zero_of_le (Nat.le_of_not_lt room)]
    rfl

end PlainFile

namespace Transfer

variable {channel origin flushed : Channel} {descriptor : Descriptor} {content : Content}
  {needle : Bytes}

def searchEnd (needle : Bytes) (start finish : Nat) (origin : Channel) : Option Nat → Channel
  | some place => (skip (place - start + needle.length) (origin.moved start)).2
  | none => (skip (finish - start + needle.length) (origin.moved start)).2

def backEnd (needle : Bytes) (last : Nat) (origin : Channel) : Option Nat → Channel
  | some place => (skip needle.length (origin.moved place)).2
  | none => origin.moved last

def backStart (needle : Bytes) (first last : Nat) : Nat :=
  if needle = [] ∨ last ≤ first then first else last

/-- What a backward search does from there. -/
def searchFrom (needle : Bytes) (first last : Nat) : Transfer (Option Nat) := do
  if needle = [] then return some first
  else if first < last then return none
  else
    skip needle.length
    let channel ← get
    match channel.host.lastOccurrence? channel.stream.descriptor needle last (first + 1) with
    | some position =>
        probe needle position
        return some position
    | none =>
        seek last
        return none

theorem searchBack_eq (needle : Bytes) (first last : Nat) :
    searchBack needle first last
      = (do prepareRead; seek (backStart needle first last)) >>= fun _ => searchFrom needle first last := by
  unfold searchBack searchFrom
  rw [backStart, bind_assoc]
  congr 1
  funext _
  by_cases empty : needle = []
  · rw [if_pos (List.isEmpty_iff.mpr empty), if_pos (.inl empty), if_pos empty]
  rw [if_neg (empty ∘ List.isEmpty_iff.mp), if_neg empty]
  by_cases inverted : first < last
  · rw [if_pos inverted, if_neg (not_or_intro empty (Nat.not_le.mpr inverted)), if_pos inverted]
  · rw [if_neg inverted, if_pos (.inr (Nat.le_of_not_lt inverted)), if_neg inverted]
    exact bind_assoc _ _ _

def backAnswer (needle content : Bytes) (first last : Nat) : Option Nat :=
  if needle = [] then some first else PlainFile.lastPlace? needle content first last

section Placed

variable {here : Nat} (placed : channel.Placed origin descriptor content here)

include placed

theorem skip_placed (start count : Nat) :
    skip count (origin.moved start) = (.ok (), (skip count (origin.moved start)).2)
      ∧ (skip count (origin.moved start)).2.Placed origin descriptor content
        (start + min count (content.toBytes.length - start)) := by
  have begun := placed.move start
  rw [placed.kept] at begun
  obtain ⟨after, read, reached⟩ := readBytes_placed begun count
  rw [List.length_take, List.length_drop] at reached
  rw [skip_run read]
  exact ⟨rfl, reached⟩

theorem searchEnd_placed (needle : Bytes) (start finish : Nat) :
    ∃ place, (searchEnd needle start finish origin
        (PlainFile.firstPlace? needle content.toBytes start finish)).Placed origin descriptor content
          place
      ∧ ∀ found ∈ PlainFile.firstPlace? needle content.toBytes start finish,
          place = found + needle.length := by
  cases found : PlainFile.firstPlace? needle content.toBytes start finish with
  | some place =>
      refine ⟨_, (skip_placed placed start (place - start + needle.length)).2, ?_⟩
      intro other member
      cases member
      by_cases empty : needle = []
      · rw [empty, PlainFile.firstPlace?_nil] at found
        split at found <;> cases found
        rw [empty, Nat.sub_self, List.length_nil, Nat.zero_min]
      · obtain ⟨later, covered⟩ := PlainFile.firstPlace?_inside empty found
        omega
  | none =>
      refine ⟨_, (skip_placed placed start (finish - start + needle.length)).2, ?_⟩
      intro other member
      cases member

theorem backEnd_placed (needle : Bytes) (first last : Nat) :
    ∃ place, (backEnd needle last origin
        (backAnswer needle content.toBytes first last)).Placed origin descriptor content place
      ∧ (∀ found ∈ backAnswer needle content.toBytes first last, place = found + needle.length)
      ∧ (backAnswer needle content.toBytes first last = none → place = last) := by
  cases found : backAnswer needle content.toBytes first last with
  | some place =>
      refine ⟨_, (skip_placed placed place needle.length).2, ?_, fun none => by cases none⟩
      intro other member
      cases member
      by_cases empty : needle = []
      · rw [empty, List.length_nil, Nat.zero_min]
      · rw [backAnswer, if_neg empty] at found
        have covered := (PlainFile.lastPlace?_inside empty found).2
        omega
  | none =>
      have left := placed.move last
      rw [placed.kept] at left
      refine ⟨last, left, ?_, fun _ => rfl⟩
      intro other member
      cases member

theorem probe_run {target : Nat} (inside : target ≤ Content.maxSize) :
    probe needle target channel = (.ok (), (skip needle.length (origin.moved target)).2) := by
  unfold probe
  rw [Effect.bind_ok (seek_placed placed inside), placed.kept]
  exact (skip_placed placed target needle.length).1

end Placed

/-- From its start, a backward search goes to the last place where the needle stands. -/
theorem searchFrom_run {first last : Nat}
    (begun : (origin.moved (backStart needle first last)).Placed origin descriptor content
      (backStart needle first last))
    (inside : backStart needle first last ≤ Content.maxSize) :
    searchFrom needle first last (origin.moved (backStart needle first last))
      = (.ok (backAnswer needle content.toBytes first last),
        backEnd needle last origin (backAnswer needle content.toBytes first last)) := by
  unfold searchFrom
  rw [backAnswer]
  by_cases empty : needle = []
  · have start : backStart needle first last = first := if_pos (.inl empty)
    rw [if_pos empty, if_pos empty, start, empty]
    rfl
  rw [if_neg empty, if_neg empty]
  by_cases inverted : first < last
  · have start : backStart needle first last = last :=
      if_neg (not_or_intro empty (Nat.not_le.mpr inverted))
    rw [if_pos inverted, PlainFile.lastPlace?_below needle content.toBytes inverted, start]
    rfl
  · have ordered : last ≤ first := Nat.le_of_not_lt inverted
    have start : backStart needle first last = first := if_pos (.inr ordered)
    rw [start] at begun inside ⊢
    obtain ⟨ran, probed⟩ := skip_placed begun first needle.length
    rw [if_neg inverted, Effect.bind_ok ran, Effect.get_bind_run,
      Host.lastOccurrence?_peeked (Host.peek_file probed.opened) empty, ← PlainFile.lastPlace?]
    cases found : PlainFile.lastPlace? needle content.toBytes first last with
    | some place =>
        have below := (PlainFile.lastPlace?_inside empty found).1
        exact Effect.bind_ok (probe_run probed (Nat.le_trans below inside))
    | none =>
        have sought := seek_placed probed (Nat.le_trans ordered inside)
        rw [probed.kept] at sought
        exact Effect.bind_ok sought

section Flushed

variable (ran : flush channel = (.ok (), flushed))
  (opened : flushed.turned.host.open? flushed.turned.stream.descriptor
    = some (descriptor, .file content))

include ran opened

/-- A forward search answers the first place, and leaves the stream behind the match. -/
theorem search_run {start : Nat} (inside : start ≤ Content.maxSize) (finish : Nat) :
    search needle start finish channel
      = (.ok (PlainFile.firstPlace? needle content.toBytes start finish),
        searchEnd needle start finish flushed.turned
          (PlainFile.firstPlace? needle content.toBytes start finish)) := by
  have begun := turned_placed ran opened start
  unfold search
  rw [← bind_assoc, Effect.bind_ok (prepareRead_inside ran opened inside)]
  by_cases empty : needle = []
  · subst empty
    rw [if_pos (by rfl), PlainFile.firstPlace?_nil]
    split
    · rw [searchEnd, Nat.sub_self]
      rfl
    · rw [searchEnd, Nat.sub_eq_zero_of_le (by omega)]
      rfl
  · rw [if_neg (by simpa using empty), Effect.get_bind_run,
      Host.firstOccurrence?_peeked (Host.peek_file begun.opened) empty]
    cases PlainFile.firstPlace? needle content.toBytes start finish with
    | some place => exact Effect.bind_ok (skip_placed begun start (place - start + needle.length)).1
    | none => exact Effect.bind_ok (skip_placed begun start (finish - start + needle.length)).1

/-- A backward search answers the last place, and leaves the stream behind the match or at `last`. -/
theorem searchBack_run {first last : Nat} (inside : backStart needle first last ≤ Content.maxSize) :
    searchBack needle first last channel
      = (.ok (backAnswer needle content.toBytes first last),
        backEnd needle last flushed.turned (backAnswer needle content.toBytes first last)) := by
  rw [searchBack_eq, Effect.bind_ok (prepareRead_inside ran opened inside)]
  exact searchFrom_run (turned_placed ran opened _) inside

theorem search_beyond {start : Nat} (beyond : Content.maxSize < start) (finish : Nat) :
    (search needle start finish channel).1 = .error .invalidArgument := by
  unfold search
  rw [← bind_assoc, Effect.bind_error (Effect.run_of_answer (prepareRead_beyond ran opened beyond))]

theorem searchBack_beyond {first last : Nat} (beyond : Content.maxSize < backStart needle first last) :
    (searchBack needle first last channel).1 = .error .invalidArgument := by
  rw [searchBack_eq,
    Effect.bind_error (Effect.run_of_answer (prepareRead_beyond ran opened beyond))]

end Flushed

end Transfer

end Calculator
