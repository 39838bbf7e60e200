import Calculator.Proofs.BuiltinCalls
import Calculator.Proofs.FileSearches

/-!
# Windows of the search builtins

The bounds that a search builtin is given are resolved against the size of the file and the place where
it stands. In the window that they name, `search` finds the first place where the text fits and stands,
and `rsearch` the last.
-/

namespace Calculator

namespace Builtin

def StandsFor (value : Value) : Option Int → Prop
  | none => value.isNull = true
  | some bound => value.integer? = some bound

/-- The start of a window. Without bounds, or with an end only, it is where the file stands. -/
def windowStart (size place : Int) : List (Option Int) → Int
  | [] => place
  | none :: some _ :: _ => place
  | some start :: _ => if start < 0 then max (size + start) 0 else start
  | _ => 0

/-- The end of a window. Where only the end is null, or both bounds are, it is where the file stands. -/
def windowEnd (size place : Int) : List (Option Int) → Int
  | _ :: some finish :: _ => if 0 < finish then min finish size else size + finish
  | _ :: none :: _ => place
  | _ => size

/-- The bounds of a window as the builtins resolve them, none where neither a bound nor the place of the
file stands for it. -/
def resolved (size place : Int) : List (Option Int) → Option Int × Option Int
  | [] => (some place, none)
  | [start] => (start.map (resolveStart size), none)
  | none :: some finish :: _ => (some place, some (resolveFinish size finish))
  | start :: none :: _ => (start.map (resolveStart size), some place)
  | start :: some finish :: _ => (start.map (resolveStart size), some (resolveFinish size finish))

theorem resolveStart_eq (size start : Int) :
    resolveStart size start = if start < 0 then max (size + start) 0 else start := by
  rw [resolveStart, Int.add_comm]

theorem resolveFinish_eq (size finish : Int) :
    resolveFinish size finish = if 0 < finish then min finish size else size + finish := by
  rw [resolveFinish]
  split <;> split <;> omega

theorem resolved_start (size place : Int) (bounds : List (Option Int)) :
    (resolved size place bounds).1.getD 0 = windowStart size place bounds := by
  rcases bounds with _ | ⟨_ | start, _ | ⟨_ | finish, _⟩⟩
  all_goals simp [resolved, windowStart, resolveStart_eq]

theorem resolved_finish (size place : Int) (bounds : List (Option Int)) :
    (resolved size place bounds).2.getD size = windowEnd size place bounds := by
  rcases bounds with _ | ⟨_ | start, _ | ⟨_ | finish, _⟩⟩
  all_goals simp [resolved, windowEnd, resolveFinish_eq]

def backLow (size place : Int) (bounds : List (Option Int)) : Int :=
  if bounds.length < 2 then 0 else windowStart size place bounds

/-- The highest place of a backward search for a text of some length: the start of the window, where
there is one, or with four arguments the last place where the text fits into the window. -/
def backHigh (size place length : Int) : List (Option Int) → Int
  | [none] => size - length
  | start :: finish :: rest => min (windowEnd size place (start :: finish :: rest)) size - length
  | bounds => min (windowStart size place bounds) (size - length)

theorem onFiles_ok {α : Type} {operation : FileM α} {before after : Files} {result : α}
    (ran : operation before = (.ok result, after)) (fault : FileError → ErrorCode)
    (machine : Machine) :
    onFiles fault operation { machine with files := before }
      = (.ok result, { machine with files := after }) := by
  rw [onFiles, ran]
  rfl

section Backward

variable {few : Prop} [Decidable few] {bounds : List (Option Int)} (fewer : few ↔ bounds.length < 2)

include fewer

theorem resolved_low (size place : Int) :
    (if few then 0 else (resolved size place bounds).1.getD 0) = backLow size place bounds := by
  simp only [fewer, resolved_start, backLow]

theorem resolved_high (size place length : Int) :
    (match if few then (resolved size place bounds).1
        else (resolved size place bounds).2.map fun finish => finish - length with
      | some bound => min bound (size - length)
      | none => size - length)
      = backHigh size place length bounds := by
  simp only [fewer]
  match bounds with
  | [] => rfl
  | [none] => rfl
  | [some start] => simp [resolved, backHigh, windowStart, resolveStart_eq]
  | start :: finish :: rest =>
      have long : ¬ (start :: finish :: rest).length < 2 := by simp
      rw [if_neg long]
      cases start <;> cases finish
      all_goals simp only [resolved, backHigh, windowEnd, resolveFinish_eq, Option.map_some]
      all_goals exact Int.sub_min_sub_right _ _ _

end Backward

theorem windowStart_nonneg {place : Int} (counted : 0 ≤ place) (size : Int)
    (bounds : List (Option Int)) : 0 ≤ windowStart size place bounds := by
  rcases bounds with _ | ⟨_ | start, _ | ⟨_ | finish, _⟩⟩
  all_goals simp only [windowStart]
  all_goals omega

theorem backLow_nonneg {place : Int} (counted : 0 ≤ place) (size : Int)
    (bounds : List (Option Int)) : 0 ≤ backLow size place bounds := by
  rw [backLow]
  split
  · exact Int.le_refl 0
  · exact windowStart_nonneg counted size bounds

theorem backHigh_le (size place length : Int) (bounds : List (Option Int)) :
    backHigh size place length bounds ≤ size - length := by
  match bounds with
  | [] | [none] | [some _] | _ :: _ :: _ =>
      simp only [backHigh]
      omega

theorem windowEnd_le (size place : Int) (bounds : List (Option Int)) :
    windowEnd size place bounds ≤ max size place := by
  rcases bounds with _ | ⟨_ | start, _ | ⟨_ | finish, _⟩⟩
  all_goals simp only [windowEnd]
  all_goals omega

/-- The places where a text fits into a window are those from its start up to a limit. -/
theorem window_places {size place : Int} {bounds : List (Option Int)} {low limit length : Nat}
    (starts : windowStart size place bounds = low)
    (limits : windowEnd size place bounds - length + 1 = limit) (stands : Nat → Prop) :
    {start : Nat | windowStart size place bounds ≤ start
        ∧ (start + length : Int) ≤ windowEnd size place bounds ∧ stands start}
      = {start | low ≤ start ∧ start < limit ∧ stands start} := by
  ext start
  simp only [Set.mem_ofPred_eq, ← and_assoc]
  refine and_congr_left fun _ => ?_
  omega

section Arguments

variable {value : Value} {arguments : List Value} {index : Nat} {bound : Option Int}

theorem isNull_of_integer? {integer : Int} (given : value.integer? = some integer) :
    value.isNull = false := by
  rw [Value.integer?, Value.number?] at given
  rw [Value.isNull, Value.kind]
  cases shape : value.data with
  | null =>
      rw [shape] at given
      cases given
  | _ => rfl

theorem integerArgument?_missing (code : ErrorCode) (missing : arguments[index]? = none) :
    integerArgument? code arguments index = pure none := by
  rw [integerArgument?, optional, missing]

theorem integerArgument?_given (code : ErrorCode) (given : arguments[index]? = some value)
    (bounds : StandsFor value bound) : integerArgument? code arguments index = pure bound := by
  rw [integerArgument?, optional, given]
  cases bound with
  | none =>
      have null : value.isNull = true := bounds
      simp [null]
  | some integer =>
      have solid := isNull_of_integer? bounds
      have integral : value.integer? = some integer := bounds
      simp [solid, integerOr, integral]

end Arguments

section Window

variable {handle text : Value} {values : List Value} {bounds : List (Option Int)} {id : FileId}
  {needle : Bytes} {machine : Machine} {size place : Int} {written : Files}

/-- A window is resolved against the size of the file and where it stands with its output written. -/
theorem window_run (codes : SearchCodes) (file : handle.file? = some id)
    (given : text.text? = some needle) (bounded : List.Forall₂ StandsFor values bounds)
    (few : bounds.length ≤ 2) (sized : Files.size id machine.files = (.ok size, written))
    (stands : Files.tell id written = (.ok place, written)) :
    window codes (handle :: text :: values) machine
      = (.ok ⟨id, needle, (resolved size place bounds).1, (resolved size place bounds).2, size⟩,
        { machine with files := written }) := by
  have handled : fileOr codes.file (argument (handle :: text :: values) 0) = pure id := by
    rw [fileOr, argument, List.getD_cons_zero, file]
  have texted : textOr codes.text (argument (handle :: text :: values) 1) = pure needle := by
    rw [textOr, argument, List.getD_cons_succ, List.getD_cons_zero, given]
  have measured : onFiles (fun _ => codes.read) (Files.size id) machine
      = (.ok size, { machine with files := written }) := onFiles_ok sized _ machine
  have told : onFiles (fun _ => codes.read) (Files.tell id) { machine with files := written }
      = (.ok place, { machine with files := written }) := onFiles_ok stands _ machine
  unfold window
  rw [handled, texted]
  simp only [pure_bind]
  rcases bounded with _ | @⟨_, start, _, _, first, _ | @⟨_, finish, _, _, second, _ | _⟩⟩
  · rw [integerArgument?_missing _ rfl, integerArgument?_missing _ rfl]
    simp only [pure_bind]
    rw [Effect.bind_ok measured]
    exact Effect.bind_ok told
  · rw [integerArgument?_given _ rfl first, integerArgument?_missing _ rfl]
    simp only [pure_bind]
    rw [Effect.bind_ok measured]
    rfl
  · rw [integerArgument?_given _ rfl first, integerArgument?_given _ rfl second]
    simp only [pure_bind]
    rw [Effect.bind_ok measured]
    cases start <;> cases finish
    · exact Effect.bind_ok told
    · exact Effect.bind_ok told
    · exact Effect.bind_ok told
    · rfl
  · simp at few

end Window

/-- A builtin that takes two to four arguments, called with two and with bounds. -/
theorem call_bounded {name : String} {body : List Value → BuiltinM Value} {handle text answer : Value}
    {values : List Value} {bounds : List (Option Int)} {machine after : Machine}
    (called : Registry.standard.call name = counted name 2 4 body)
    (bounded : List.Forall₂ StandsFor values bounds) (few : bounds.length ≤ 2)
    (ran : body (handle :: text :: values) machine = (.ok answer, after)) :
    Registry.standard.call name (handle :: text :: values) machine = (.ok answer, after) := by
  have fewer : values.length ≤ 2 := bounded.length_eq ▸ few
  have enough : 2 ≤ (handle :: text :: values).length := Nat.le_add_left _ _
  rw [called, counted_run enough (Nat.add_le_add_right fewer 2), settle, ran]

theorem positionOrNull_place (found : Option Nat) :
    positionOrNull (found.map Int.ofNat)
      = match found with
        | some start => Value.ofInt start
        | none => Value.null := by
  cases found <;> rfl

section Searches

variable {machine : Machine} {id : FileId} {entry : Entry} {flushed : Channel}
  {descriptor : Descriptor} {stored : Content} {handle text : Value} {needle : Bytes}
  {values : List Value} {bounds : List (Option Int)}
  (flushes : machine.files.Flushes id entry flushed descriptor stored)
  (reading : entry.mode.reading = true) (file : handle.file? = some id)
  (given : text.text? = some needle) (bounded : List.Forall₂ StandsFor values bounds)
  (few : bounds.length ≤ 2)

include flushes file given bounded few

/-- A search whose window has no place for the text answers null, and is not made. -/
theorem search_narrow
    (narrow : windowEnd stored.toBytes.length (flushed.standing descriptor) bounds - needle.length + 1
      ≤ windowStart stored.toBytes.length (flushed.standing descriptor) bounds) :
    Registry.standard.call "search" (handle :: text :: values) machine
      = (.ok (positionOrNull none),
        { machine with files := machine.files.withChannel id flushed }) := by
  have window := window_run searchCodes file given bounded few flushes.size_run flushes.tell_run
  refine call_bounded rfl bounded few ?_
  unfold search
  rw [Effect.bind_ok window]
  dsimp only
  rw [resolved_start, resolved_finish, if_pos narrow]
  rfl

include reading

/-- Any other search is made between the bounds of its window. -/
theorem search_wide {low limit : Nat}
    (starts : windowStart stored.toBytes.length (flushed.standing descriptor) bounds = low)
    (limits : windowEnd stored.toBytes.length (flushed.standing descriptor) bounds - needle.length + 1
      = limit)
    (wide : low < limit) (inside : low ≤ Content.maxSize) (bound : limit < 2 ^ 63) :
    Registry.standard.call "search" (handle :: text :: values) machine
      = (.ok (positionOrNull ((PlainFile.firstPlace? needle stored.toBytes low limit).map Int.ofNat)),
        { machine with
          files := machine.files.withChannel id (Transfer.searchEnd needle low limit flushed.turned
            (PlainFile.firstPlace? needle stored.toBytes low limit)) }) := by
  have window := window_run searchCodes file given bounded few flushes.size_run flushes.tell_run
  have again := flushes.again
  have found : Files.search id needle low limit (machine.files.withChannel id flushed)
      = (.ok ((PlainFile.firstPlace? needle stored.toBytes low limit).map Int.ofNat),
        machine.files.withChannel id (Transfer.searchEnd needle low limit flushed.turned
          (PlainFile.firstPlace? needle stored.toBytes low limit))) := by
    rw [Files.search_eq (Nat.lt_trans wide bound) bound,
      Files.readable_ok again.found reading (Transfer.search_run again.ran again.opened inside limit),
      Files.withChannel_withChannel]
  have past : ¬ (limit : Int) ≤ (low : Int) := by omega
  refine call_bounded rfl bounded few ?_
  unfold search
  rw [Effect.bind_ok window]
  dsimp only
  rw [resolved_start, resolved_finish, starts, limits, if_neg past]
  exact Effect.bind_ok (onFiles_ok found _ machine)

omit reading

theorem rsearch_run :
    rsearch (handle :: text :: values) machine
      = (let low := backLow stored.toBytes.length (flushed.standing descriptor) bounds
        let high := backHigh stored.toBytes.length (flushed.standing descriptor) needle.length bounds
        if high < low then pure Value.null
        else do
          return positionOrNull
            (← onFiles (searchFault rsearchCodes) (Files.searchBack id needle high low)) : BuiltinM Value)
        { machine with files := machine.files.withChannel id flushed } := by
  have window := window_run rsearchCodes file given bounded few flushes.size_run flushes.tell_run
  have fewer : (handle :: text :: values).length < 4 ↔ bounds.length < 2 := by
    simp only [List.length_cons, bounded.length_eq]
    omega
  rw [← resolved_low fewer, ← resolved_high fewer]
  exact Effect.bind_ok window

/-- A backward search whose highest place is below its lowest answers null. -/
theorem rsearch_narrow
    (narrow : backHigh stored.toBytes.length (flushed.standing descriptor) needle.length bounds
      < backLow stored.toBytes.length (flushed.standing descriptor) bounds) :
    Registry.standard.call "rsearch" (handle :: text :: values) machine
      = (.ok (positionOrNull none),
        { machine with files := machine.files.withChannel id flushed }) := by
  refine call_bounded rfl bounded few ?_
  rw [rsearch_run flushes file given bounded few]
  dsimp only
  rw [if_pos narrow]
  rfl

include reading

/-- Any other backward search answers the last place, as far as the needle is not empty. -/
theorem rsearch_wide {high low : Nat}
    (highest : backHigh stored.toBytes.length (flushed.standing descriptor) needle.length bounds = high)
    (lowest : backLow stored.toBytes.length (flushed.standing descriptor) bounds = low)
    (ordered : low ≤ high) (inside : high ≤ Content.maxSize) :
    Registry.standard.call "rsearch" (handle :: text :: values) machine
      = (.ok (positionOrNull ((Transfer.backAnswer needle stored.toBytes high low).map Int.ofNat)),
        { machine with
          files := machine.files.withChannel id (Transfer.backEnd needle low flushed.turned
            (Transfer.backAnswer needle stored.toBytes high low)) }) := by
  have again := flushes.again
  have bound : Content.maxSize < 2 ^ 63 := by decide
  have begins : Transfer.backStart needle high low ≤ Content.maxSize := by
    rwa [Transfer.backStart, if_pos (.inr ordered)]
  have found : Files.searchBack id needle high low (machine.files.withChannel id flushed)
      = (.ok ((Transfer.backAnswer needle stored.toBytes high low).map Int.ofNat),
        machine.files.withChannel id (Transfer.backEnd needle low flushed.turned
          (Transfer.backAnswer needle stored.toBytes high low))) := by
    rw [Files.searchBack_eq (by omega) (by omega),
      Files.readable_ok again.found reading (Transfer.searchBack_run again.ran again.opened begins),
      Files.withChannel_withChannel]
  have upright : ¬ (high : Int) < (low : Int) := by omega
  refine call_bounded rfl bounded few ?_
  rw [rsearch_run flushes file given bounded few]
  dsimp only
  rw [highest, lowest, if_neg upright]
  exact Effect.bind_ok (onFiles_ok found _ machine)

end Searches

end Builtin

open Builtin

/-- The builtin `search` answers the first place in its window where all of the text stands, and null
where there is none. Its scan ends there. In a run no file stands beyond the largest size
(`Files.bounded_over_runs`). -/
theorem search_finds_first {machine : Machine} {id : FileId} {entry : Entry} {descriptor : Descriptor}
    {content : Content} {bytes needle : Bytes} {handle text : Value} {values : List Value}
    {bounds : List (Option Int)} (regular : machine.files.Regular id entry descriptor content bytes)
    (reading : entry.mode.reading = true) (within : descriptor.offset ≤ Content.maxSize)
    (file : handle.file? = some id) (given : text.text? = some needle)
    (bounded : List.Forall₂ StandsFor values bounds) (few : bounds.length ≤ 2) :
    let written := (Files.size id machine.files).2
    let ran := Registry.standard.call "search" (handle :: text :: values) machine
    ∃ (place : Nat) (found : Option Nat), (Files.tell id written).1 = .ok (place : Int)
      ∧ ran.1 = .ok (match found with
          | some start => Value.ofInt start
          | none => Value.null)
      ∧ IsFirst {start : Nat | windowStart bytes.length place bounds ≤ start
          ∧ (start + needle.length : Int) ≤ windowEnd bytes.length place bounds
          ∧ needle <+: bytes.drop start} found
      ∧ (let low := windowStart bytes.length place bounds
        let limit := windowEnd bytes.length place bounds - needle.length + 1
        low < limit → needle ≠ [] →
          written.ScansUp id needle low.toNat limit.toNat found ran.2.files)
      ∧ ran.2.files.contentOf? id = some bytes
      ∧ ran.2.files.host.nodes = written.host.nodes
      ∧ ∀ start ∈ found, (Files.tell id ran.2.files).1 = .ok ((start + needle.length : Nat) : Int) := by
  obtain ⟨flushed, stored, flushes, rfl⟩ := regular.flushes
  intro written ran
  have left : written = machine.files.withChannel id flushed := congrArg Prod.snd flushes.size_run
  have near := flushes.standing_le (Descriptor.reached_le within content entry.stream.pending)
  generalize ({ descriptor with offset := descriptor.reached content entry.stream.pending }
    : Descriptor) = reached at flushes near
  generalize stands : flushed.standing reached = place at near
  have told := congrArg Prod.fst flushes.tell_run
  rw [stands] at told
  have top := windowEnd_le stored.toBytes.length place bounds
  obtain ⟨low, starts⟩ := Int.eq_ofNat_of_zero_le
    (windowStart_nonneg (Int.natCast_nonneg place) stored.toBytes.length bounds)
  have sized := regular.fits
  have largest : Content.maxSize = 17592186040320 := rfl
  refine ⟨place, ?_⟩
  rw [left]
  by_cases narrow : windowEnd stored.toBytes.length place bounds - needle.length + 1
      ≤ windowStart stored.toBytes.length place bounds
  · have answered := search_narrow flushes file given bounded few (by rwa [stands])
    have same : ran = _ := answered
    rw [same]
    refine ⟨none, told, rfl, ?_, fun wide => absurd narrow (Int.not_le.mpr wide),
      flushes.contentOf?_written, rfl, fun start member => by cases member⟩
    rintro start ⟨later, covered, _⟩
    omega
  · obtain ⟨limit, limits⟩ := Int.eq_ofNat_of_zero_le (show
      0 ≤ windowEnd stored.toBytes.length place bounds - needle.length + 1 by omega)
    have answered := search_wide flushes reading file given bounded few (by rwa [stands])
      (by rwa [stands]) (by omega) (by omega) (by omega)
    have same : ran = _ := answered
    rw [same]
    obtain ⟨behind, lands, after⟩ := flushes.searchEnd_lands needle low limit
    refine ⟨_, told, congrArg Except.ok (positionOrNull_place _), ?_, ?_, lands.content, lands.nodes, ?_⟩
    · rw [window_places starts limits]
      exact PlainFile.firstPlace?_isFirst needle stored.toBytes low limit
    · rw [starts, limits]
      exact fun _ nonempty => flushes.scansUp nonempty (by omega) limit
    · intro start member
      rw [← after start member]
      exact lands.tell

def RangeSample.machine : Machine := { Machine.new {} OneFile.host with files := RangeSample.files }

theorem RangeSample.regular_machine : RangeSample.machine.files.Regular ⟨3⟩ RangeSample.entry
    { node := 10, offset := 0, appends := false } (Content.ofBytes RangeSample.bytes)
    RangeSample.bytes :=
  RangeSample.regular

/-- In the last four bytes of `abcde`, `cd` stands at 2. -/
theorem search_of_sample :
    (Registry.standard.call "search" [Value.ofFile ⟨3⟩, Value.ofText [0x63, 0x64], Value.ofInt (-4)]
        RangeSample.machine).1 = .ok (Value.ofInt 2)
      ∧ IsFirst {start : Nat | (1 : Int) ≤ start ∧ (start + 2 : Int) ≤ 5
          ∧ [0x63, 0x64] <+: RangeSample.bytes.drop start} (some 2) := by
  have file : (Value.ofFile ⟨3⟩).file? = some ⟨3⟩ := rfl
  have given : (Value.ofText [0x63, 0x64]).text? = some [0x63, 0x64] := rfl
  have bound : StandsFor (Value.ofInt (-4)) (some (-4)) := rfl
  obtain ⟨_, found, _, answered, first, _⟩ :=
    search_finds_first RangeSample.regular_machine rfl (by decide) file given (.cons bound .nil)
      (by decide)
  have stands : (2 : Nat) ∈ {start : Nat | (1 : Int) ≤ start ∧ (start + 2 : Int) ≤ 5
      ∧ [0x63, 0x64] <+: RangeSample.bytes.drop start} := by decide
  have least : IsLeast {start : Nat | (1 : Int) ≤ start ∧ (start + 2 : Int) ≤ 5
      ∧ [0x63, 0x64] <+: RangeSample.bytes.drop start} 2 :=
    ⟨stands, fun start ⟨low, high, here⟩ => by
      have places : start = 1 ∨ start = 2 ∨ start = 3 := by omega
      rcases places with rfl | rfl | rfl <;> revert here <;> decide⟩
  have named : found = some 2 := first.eq_some stands fun _ other => other.unique least
  rw [named] at answered first
  exact ⟨answered, first⟩

/-- The builtin `rsearch` answers the last place, from the highest down to the lowest, where all of the
text stands, and null where there is none. Its scan ends, from whatever place it is made. -/
theorem rsearch_finds_last {machine : Machine} {id : FileId} {entry : Entry} {descriptor : Descriptor}
    {content : Content} {bytes needle : Bytes} {handle text : Value} {values : List Value}
    {bounds : List (Option Int)} (regular : machine.files.Regular id entry descriptor content bytes)
    (reading : entry.mode.reading = true) (file : handle.file? = some id)
    (given : text.text? = some needle) (bounded : List.Forall₂ StandsFor values bounds)
    (few : bounds.length ≤ 2) :
    let written := (Files.size id machine.files).2
    let ran := Registry.standard.call "rsearch" (handle :: text :: values) machine
    ∃ (place : Nat) (found : Option Nat), (Files.tell id written).1 = .ok (place : Int)
      ∧ ran.1 = .ok (match found with
          | some start => Value.ofInt start
          | none => Value.null)
      ∧ (let low := backLow bytes.length place bounds
        let high := backHigh bytes.length place needle.length bounds
        IsLast {start : Nat | low ≤ start ∧ start ≤ high ∧ needle <+: bytes.drop start} found
          ∧ (low ≤ high → found = none → (Files.tell id ran.2.files).1 = .ok low)
          ∧ (low ≤ high → needle ≠ [] →
            written.ScansDown id needle high.toNat low.toNat found ran.2.files))
      ∧ (needle ≠ [] → ∀ first last : Nat, first ≤ Content.maxSize → last ≤ Content.maxSize →
        ∃ answer after, written.ScansDown id needle first last answer after)
      ∧ ran.2.files.contentOf? id = some bytes
      ∧ ran.2.files.host.nodes = written.host.nodes
      ∧ ∀ start ∈ found, (Files.tell id ran.2.files).1 = .ok ((start + needle.length : Nat) : Int) := by
  obtain ⟨flushed, stored, flushes, rfl⟩ := regular.flushes
  intro written ran
  have left : written = machine.files.withChannel id flushed := congrArg Prod.snd flushes.size_run
  generalize ({ descriptor with offset := descriptor.reached content entry.stream.pending }
    : Descriptor) = reached at flushes
  generalize stands : flushed.standing reached = place
  have told := congrArg Prod.fst flushes.tell_run
  rw [stands] at told
  have sized := regular.fits
  have scans : needle ≠ [] → ∀ first last : Nat, first ≤ Content.maxSize → last ≤ Content.maxSize →
      ∃ answer after, (machine.files.withChannel id flushed).ScansDown id needle first last answer after :=
    fun nonempty _ _ inside bounded => ⟨_, _, flushes.scansDown nonempty inside bounded⟩
  obtain ⟨low, lowest⟩ := Int.eq_ofNat_of_zero_le
    (backLow_nonneg (Int.natCast_nonneg place) stored.toBytes.length bounds)
  have top := backHigh_le stored.toBytes.length place needle.length bounds
  refine ⟨place, ?_⟩
  rw [left]
  by_cases narrow : backHigh stored.toBytes.length place needle.length bounds
      < backLow stored.toBytes.length place bounds
  · have answered := rsearch_narrow flushes file given bounded few (by rwa [stands])
    have same : ran = _ := answered
    rw [same]
    refine ⟨none, told, rfl, ⟨?_, fun ordered => absurd narrow (Int.not_lt.mpr ordered),
      fun ordered => absurd narrow (Int.not_lt.mpr ordered)⟩, scans, flushes.contentOf?_written, rfl,
      fun start member => by cases member⟩
    rintro start ⟨later, before, _⟩
    omega
  · obtain ⟨high, highest⟩ := Int.eq_ofNat_of_zero_le (show
      0 ≤ backHigh stored.toBytes.length place needle.length bounds by omega)
    have answered := rsearch_wide flushes reading file given bounded few (by rwa [stands])
      (by rwa [stands]) (by omega) (by omega)
    have same : ran = _ := answered
    rw [same, lowest, highest]
    obtain ⟨behind, lands, after, missed⟩ := flushes.backEnd_lands needle high low
    refine ⟨_, told, congrArg Except.ok (positionOrNull_place _), ⟨?_, ?_, ?_⟩, scans, lands.content, lands.nodes, ?_⟩
    · simp only [Int.ofNat_le]
      exact (Transfer.backAnswer_isLast_iff needle stored.toBytes high low).mpr (.inr (by omega))
    · intro _ none
      rw [lands.tell, missed none]
    · intro _ nonempty
      exact flushes.scansDown nonempty (by omega) (by omega)
    · intro start member
      rw [← after start member]
      exact lands.tell

/-- From 3 down to the start of `abcde`, `c` stands at 2. -/
theorem rsearch_of_sample :
    (Registry.standard.call "rsearch" [Value.ofFile ⟨3⟩, Value.ofText [0x63], Value.ofInt 3]
        RangeSample.machine).1 = .ok (Value.ofInt 2)
      ∧ IsLast {start : Nat | (0 : Int) ≤ start ∧ (start : Int) ≤ 3
          ∧ [0x63] <+: RangeSample.bytes.drop start} (some 2) := by
  have file : (Value.ofFile ⟨3⟩).file? = some ⟨3⟩ := rfl
  have given : (Value.ofText [0x63]).text? = some [0x63] := rfl
  have bound : StandsFor (Value.ofInt 3) (some 3) := rfl
  obtain ⟨_, found, _, answered, ⟨last, _⟩, _⟩ :=
    rsearch_finds_last RangeSample.regular_machine rfl file given (.cons bound .nil) (by decide)
  have stands : (2 : Nat) ∈ {start : Nat | (0 : Int) ≤ start ∧ (start : Int) ≤ 3
      ∧ [0x63] <+: RangeSample.bytes.drop start} := by decide
  have greatest : IsGreatest {start : Nat | (0 : Int) ≤ start ∧ (start : Int) ≤ 3
      ∧ [0x63] <+: RangeSample.bytes.drop start} 2 :=
    ⟨stands, fun start ⟨low, high, here⟩ => by
      have places : start ≤ 2 ∨ start = 3 := by omega
      rcases places with before | rfl
      · exact before
      · revert here
        decide⟩
  have named : found = some 2 := last.eq_some stands fun _ other => other.unique greatest
  rw [named] at answered last
  exact ⟨answered, last⟩

end Calculator
