import Calculator.Proofs.RegularEntry
import Calculator.Proofs.SearchLoops

/-!
# Searches on the file table

A search through a handle on a regular file keeps to its range: half open forwards, closed backwards. It
answers the first or the last place in the range where the needle stands, and none where there is no such
place, with one exception. A backward search for the empty needle answers the upper end of its range,
also where the range is empty. The host does not go beyond the largest size of a file, and refuses a
search that begins there.
-/

namespace Calculator

namespace Files

open Transfer (backAnswer backEnd backStart searchEnd)

variable {files : Files} {id : FileId} {entry : Entry} {flushed : Channel} {descriptor : Descriptor}
  {content stored : Content} {needle bytes : Bytes}

/-- A scan ends. Begun on the stream of the handle by `opening` and made turn by turn from `state` on, it
answers `answer` and leaves the files as they are in `after`. -/
def Scans {σ α : Type} (files : Files) (id : FileId) (opening : Transfer Unit)
    (turn : σ → Transfer (σ ⊕ α)) (state : σ) (answer : α) (after : Files) : Prop :=
  ∃ entry begun ended, files.table.find? id = some entry
    ∧ opening { stream := entry.stream, host := files.host } = (.ok (), begun)
    ∧ Transfer.Ends turn state begun answer ended
    ∧ after = files.withChannel id ended

/-- The scan of a forward search reads byte by byte from `start` on. -/
def ScansUp (files : Files) (id : FileId) (needle : Bytes) (start finish : Nat) :
    Option Nat → Files → Prop :=
  files.Scans id (do Transfer.prepareRead; Transfer.seek start) (Transfer.scanTurn needle finish)
    ([], start)

def ScansDown (files : Files) (id : FileId) (needle : Bytes) (first last : Nat) :
    Option Nat → Files → Prop :=
  files.Scans id Transfer.prepareRead (Transfer.tryTurn needle last) first

section Readable

variable {α β : Type} {transfer : Transfer α} {shape : α → β}
  (found : files.table.find? id = some entry) (reading : entry.mode.reading = true)

include found reading

theorem readable_ok {result : α} {channel : Channel}
    (ran : transfer { stream := entry.stream, host := files.host } = (.ok result, channel)) :
    (do return shape (← run (← readableEntry id) transfer) : FileM β) files
      = (.ok (shape result), files.withChannel id channel) := by
  rw [Effect.bind_ok (readableEntry_found found reading), Effect.bind_ok (run_of_ok found ran)]
  rfl

theorem readable_error {fault : Fault}
    (failed : (transfer { stream := entry.stream, host := files.host }).1 = .error fault) :
    ((do return shape (← run (← readableEntry id) transfer) : FileM β) files).1
      = .error (.host fault) := by
  rw [Effect.bind_ok (readableEntry_found found reading),
    Effect.bind_error (Effect.run_of_answer (run_of_error failed))]

end Readable

theorem search_eq {start finish : Nat} (begins : start < 2 ^ 63) (ends : finish < 2 ^ 63)
    (id : FileId) (needle : Bytes) :
    Files.search id needle start finish = (do
      return (← run (← readableEntry id) (Transfer.search needle start finish)).map Int.ofNat) := by
  unfold Files.search
  rw [Position.toAbsolute_natCast begins, Position.toAbsolute_natCast ends]
  rfl

theorem searchBack_eq {first last : Nat} (begins : first < 2 ^ 63) (ends : last < 2 ^ 63)
    (id : FileId) (needle : Bytes) :
    Files.searchBack id needle first last = (do
      return (← run (← readableEntry id) (Transfer.searchBack needle first last)).map Int.ofNat) := by
  unfold Files.searchBack
  rw [Position.toAbsolute_natCast begins, Position.toAbsolute_natCast ends]
  rfl

section Flushes

variable (flushes : files.Flushes id entry flushed descriptor stored)

include flushes

/-- A forward search leaves the file behind the match. -/
theorem Flushes.searchEnd_lands (needle : Bytes) (start finish : Nat) :
    ∃ place, (files.withChannel id (searchEnd needle start finish flushed.turned
        (PlainFile.firstPlace? needle stored.toBytes start finish))).Lands id flushed.host
          stored.toBytes place
      ∧ ∀ found ∈ PlainFile.firstPlace? needle stored.toBytes start finish,
          place = found + needle.length := by
  obtain ⟨place, placed, behind⟩ := Transfer.searchEnd_placed
    (Transfer.turned_placed flushes.ran flushes.opened start) needle start finish
  exact ⟨place, flushes.lands placed, behind⟩

/-- A backward search leaves the file behind the match, or at its last place. -/
theorem Flushes.backEnd_lands (needle : Bytes) (first last : Nat) :
    ∃ place, (files.withChannel id (backEnd needle last flushed.turned
        (backAnswer needle stored.toBytes first last))).Lands id flushed.host stored.toBytes place
      ∧ (∀ found ∈ backAnswer needle stored.toBytes first last, place = found + needle.length)
      ∧ (backAnswer needle stored.toBytes first last = none → place = last) := by
  obtain ⟨place, placed, ends⟩ := Transfer.backEnd_placed
    (Transfer.turned_placed flushes.ran flushes.opened last) needle first last
  exact ⟨place, flushes.lands placed, ends⟩

theorem Flushes.scans {σ α : Type} {opening : Transfer Unit} {turn : σ → Transfer (σ ⊕ α)} {state : σ}
    {answer : α} {begun ended : Channel} (opens : opening flushed = (.ok (), begun))
    (ends : Transfer.Ends turn state begun answer ended) :
    (files.withChannel id flushed).Scans id opening turn state answer (files.withChannel id ended) := by
  refine ⟨_, begun, ended, flushes.again.found, opens, ends, ?_⟩
  rw [withChannel_withChannel]

/-- From no place does the scan upwards go on for ever. -/
theorem Flushes.scansUp {start : Nat} (nonempty : needle ≠ []) (inside : start ≤ Content.maxSize)
    (finish : Nat) :
    (files.withChannel id flushed).ScansUp id needle start finish
      (PlainFile.firstPlace? needle stored.toBytes start finish)
      (files.withChannel id (searchEnd needle start finish flushed.turned
        (PlainFile.firstPlace? needle stored.toBytes start finish))) := by
  have again := flushes.again
  exact flushes.scans (Transfer.prepareRead_inside again.ran again.opened inside)
    ((Transfer.search_in_turns flushes.ran flushes.opened nonempty start finish).mpr ⟨rfl, rfl⟩)

/-- From no place does the scan downwards go on for ever. -/
theorem Flushes.scansDown {first last : Nat} (nonempty : needle ≠ []) (inside : first ≤ Content.maxSize)
    (bounded : last ≤ Content.maxSize) :
    (files.withChannel id flushed).ScansDown id needle first last
      (backAnswer needle stored.toBytes first last)
      (files.withChannel id (backEnd needle last flushed.turned
        (backAnswer needle stored.toBytes first last))) := by
  have again := flushes.again
  exact flushes.scans (Transfer.prepareRead_run (fun waits => absurd flushes.nothing waits) again.ran)
    ((Transfer.searchBack_in_turns flushes.ran flushes.opened nonempty inside bounded).mpr ⟨rfl, rfl⟩)

end Flushes

end Files

open Files Transfer

/-- What a backward search answers is the last place exactly where the range or the needle is not
empty. -/
theorem Transfer.backAnswer_isLast_iff (needle content : Bytes) (first last : Nat) :
    IsLast {place | last ≤ place ∧ place ≤ first ∧ needle <+: content.drop place}
        (backAnswer needle content first last)
      ↔ needle ≠ [] ∨ last ≤ first := by
  rw [backAnswer]
  by_cases empty : needle = []
  · subst empty
    rw [if_pos rfl]
    constructor
    · intro greatest
      exact .inr greatest.1.1
    · intro range
      have ordered : last ≤ first := range.resolve_left (absurd rfl)
      exact ⟨⟨ordered, Nat.le_refl first, List.nil_prefix⟩, fun other inside => inside.2.1⟩
  · rw [if_neg empty]
    exact ⟨fun _ => .inl empty, fun _ => PlainFile.lastPlace?_isLast needle content first last⟩

/-- Every search of a regular file keeps to its range and answers none where the needle does not stand
in it, but a backward search for the empty needle answers the upper end of an empty range. -/
theorem searches_keep_to_ranges {files : Files} {id : FileId} {entry : Entry} {descriptor : Descriptor}
    {content : Content} {bytes : Bytes} (regular : files.Regular id entry descriptor content bytes)
    (reading : entry.mode.reading = true) (needle : Bytes) :
    (∀ start finish : Nat, start < 2 ^ 63 → finish < 2 ^ 63 →
      (start ≤ Content.maxSize → ∃ found : Option Nat,
        (Files.search id needle start finish files).1 = .ok (found.map Int.ofNat)
          ∧ IsFirst {place | start ≤ place ∧ place < finish ∧ needle <+: bytes.drop place} found)
      ∧ (Content.maxSize < start →
        (Files.search id needle start finish files).1 = .error (.host .invalidArgument)))
    ∧ ∀ first last : Nat, first < 2 ^ 63 → last < 2 ^ 63 →
      (backStart needle first last ≤ Content.maxSize → ∃ (found : Option Nat) (after : Files),
        Files.searchBack id needle first last files = (.ok (found.map Int.ofNat), after)
          ∧ (IsLast {place | last ≤ place ∧ place ≤ first ∧ needle <+: bytes.drop place} found
            ↔ needle ≠ [] ∨ last ≤ first)
          ∧ (needle = [] → found = some first)
          ∧ (found = none → (Files.tell id after).1 = .ok (last : Int)))
      ∧ (Content.maxSize < backStart needle first last →
        (Files.searchBack id needle first last files).1 = .error (.host .invalidArgument)) := by
  obtain ⟨flushed, stored, flushes, rfl⟩ := regular.flushes
  constructor
  · intro start finish begins ends
    rw [Files.search_eq begins ends]
    refine ⟨fun inside => ?_, fun beyond => ?_⟩
    · rw [readable_ok flushes.found reading (search_run flushes.ran flushes.opened inside finish)]
      exact ⟨_, rfl, PlainFile.firstPlace?_isFirst needle stored.toBytes start finish⟩
    · exact readable_error flushes.found reading
        (search_beyond flushes.ran flushes.opened beyond finish)
  · intro first last begins ends
    rw [Files.searchBack_eq begins ends]
    refine ⟨fun inside => ?_, fun beyond => ?_⟩
    · refine ⟨_, _, readable_ok flushes.found reading
        (searchBack_run flushes.ran flushes.opened inside), ?_⟩
      obtain ⟨place, lands, _, missed⟩ := flushes.backEnd_lands needle first last
      refine ⟨backAnswer_isLast_iff needle stored.toBytes first last, ?_, ?_⟩
      · intro empty
        rw [backAnswer, if_pos empty]
      · intro none
        rw [lands.tell, missed none]
    · exact readable_error flushes.found reading
        (searchBack_beyond flushes.ran flushes.opened beyond)

namespace RangeSample

def files : Files := OneFile.opened "r"

def entry : Entry where
  id := ⟨3⟩
  name := "a"
  mode := { base := .read, binary := false, update := false }
  node := some 10
  stream := Stream.new 3 true

def bytes : Bytes := [0x61, 0x62, 0x63, 0x64, 0x65]

theorem regular : files.Regular ⟨3⟩ entry { node := 10, offset := 0, appends := false }
    (Content.ofBytes bytes) bytes where
  found := by cbv
  opened := by cbv
  holds := by cbv
  fits := by decide

theorem ranges_of_sample :
    (∃ found : Option Nat, (Files.search ⟨3⟩ [0x63, 0x64] 1 3 files).1 = .ok (found.map Int.ofNat)
        ∧ IsFirst {place | 1 ≤ place ∧ place < 3 ∧ [0x63, 0x64] <+: bytes.drop place} found)
      ∧ ∃ (found : Option Nat) (after : Files),
        Files.searchBack ⟨3⟩ [] 1 3 files = (.ok (found.map Int.ofNat), after) ∧ found = some 1 := by
  obtain ⟨forwards, _⟩ := searches_keep_to_ranges regular rfl [0x63, 0x64]
  obtain ⟨_, downwards⟩ := searches_keep_to_ranges regular rfl []
  obtain ⟨answer, after, ran, _, empty, _⟩ :=
    (downwards 1 3 (by decide) (by decide)).1 (by decide)
  exact ⟨(forwards 1 3 (by decide) (by decide)).1 (by decide), answer, after, ran, empty rfl⟩

/-- A backward search for the empty needle answers 1 where its range is from 3 to 1, and leaves the file
at 1. -/
theorem empty_needle_is_found_nowhere :
    (Files.searchBack ⟨3⟩ [] 1 3 files).1 = .ok (some 1)
      ∧ (Files.tell ⟨3⟩ (Files.searchBack ⟨3⟩ [] 1 3 files).2).1 = .ok 1
      ∧ ¬ IsLast {place | 3 ≤ place ∧ place ≤ 1 ∧ [] <+: bytes.drop place} (some 1) := by
  refine ⟨by cbv, by cbv, fun greatest => ?_⟩
  exact absurd greatest.1.1 (by decide)

end RangeSample

end Calculator
