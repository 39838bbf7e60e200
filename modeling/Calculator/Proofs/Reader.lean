import Calculator.Proofs.Stream

/-!
# Readers and searches on streams

Reading a text gathers it in pieces, and a search looks at the file itself; neither is seen. A text is
what stands before the first byte that stops it, a search finds the first or the last place in its
range, and the file is left behind the bytes that this takes.
-/

namespace Calculator

namespace PlainFile

/-- A piece of a text, of at most `room` bytes. -/
def piece (file : PlainFile) (options : ReadOptions) (room : Nat) :
    (Bytes × PieceEnd) × PlainFile :=
  let read := text options file.remaining
  if room ≤ read.length then ((read.take room, .full), file.advance room)
  else
    match file.remaining[read.length]? with
    | some stop => ((read, .stopped stop), file.advance (read.length + 1))
    | none => ((read, .atEof), file.exhaust)

variable {file : PlainFile} {options : ReadOptions} {byte : UInt8} {rest : Bytes}

theorem piece_zero (file : PlainFile) (options : ReadOptions) :
    file.piece options 0 = (([], .full), file) := by
  simp [piece, advance_zero]

theorem piece_of_nil (nothing : file.remaining = []) (room : Nat) :
    file.piece options (room + 1) = (([], .atEof), file.exhaust) := by
  simp [piece, nothing, text]

theorem piece_of_stop (left : file.remaining = byte :: rest) (stops : options.stopsAt byte = true)
    (room : Nat) : file.piece options (room + 1) = (([], .stopped byte), file.advance 1) := by
  simp [piece, left, text_cons_of_stop stops]

theorem piece_of_inside (left : file.remaining = byte :: rest)
    (inside : options.stopsAt byte = false) (room : Nat) :
    file.piece options (room + 1)
      = ((byte :: ((file.advance 1).piece options room).1.1,
          ((file.advance 1).piece options room).1.2),
        ((file.advance 1).piece options room).2) := by
  have passed := remaining_of_cons left
  have spent := file.exhaust_advance (by simp [left] : 1 ≤ file.remaining.length)
  simp only [piece, left, passed, text_cons_of_inside inside, List.length_cons,
    Nat.add_le_add_iff_right, List.take_succ_cons, List.getElem?_cons_succ, advance_advance, spent]
  split
  · rw [Nat.add_comm]
  · cases rest[(text options rest).length]? with
    | some stop => simp [Nat.add_comm]
    | none => rfl

theorem text_drop (options : ReadOptions) (bytes : Bytes) (count : Nat)
    (inside : count ≤ (text options bytes).length) :
    text options (bytes.drop count) = (text options bytes).drop count := by
  induction bytes generalizing count with
  | nil => simp [text]
  | cons byte rest ih =>
      cases count with
      | zero => rfl
      | succ count =>
          by_cases stops : options.stopsAt byte = true
          · simp [text_cons_of_stop stops] at inside
          · rw [Bool.not_eq_true] at stops
            rw [text_cons_of_inside stops] at inside ⊢
            exact ih count (by simpa using inside)

theorem text_length_le (options : ReadOptions) (bytes : Bytes) :
    (text options bytes).length ≤ bytes.length :=
  (List.takeWhile_sublist _).length_le

/-- A text may be read up to some place first and then on. -/
theorem readUntilStop_advance (file : PlainFile) (options : ReadOptions) (count : Nat)
    (inside : count ≤ (text options file.remaining).length) :
    file.readUntilStop options
      = (((text options file.remaining).take count
            ++ ((file.advance count).readUntilStop options).1.1,
          ((file.advance count).readUntilStop options).1.2),
        ((file.advance count).readUntilStop options).2) := by
  have within := text_length_le options file.remaining
  have spent := file.exhaust_advance (by omega : count ≤ file.remaining.length)
  simp only [readUntilStop, remaining_advance, text_drop options _ count inside, List.length_drop,
    List.getElem?_drop, advance_advance, spent]
  rw [Nat.add_sub_cancel' inside, ← Nat.add_assoc, Nat.add_sub_cancel' inside]
  cases file.remaining[(text options file.remaining).length]? with
  | some stop => simp
  | none => simp

theorem readUntilStop_push (file : PlainFile) (options : ReadOptions)
    (left : file.remaining = byte :: rest) :
    ((file.advance 1).push byte).readUntilStop options
      = ({ file with eof := false } : PlainFile).readUntilStop options := by
  have again : ((file.advance 1).push byte).remaining = byte :: rest := by
    rw [remaining_push, remaining_of_cons left]
  have same : ({ file with eof := false } : PlainFile).remaining = byte :: rest := left
  have forward (count : Nat) : ((file.advance 1).push byte).advance (count + 1)
      = ({ file with eof := false } : PlainFile).advance (count + 1) := by
    rw [push_advance, advance_advance, Nat.add_comm]
    rfl
  simp only [readUntilStop, exhaust, again, same, List.length_cons, forward]

/-- The file after white space was read, where the byte that ended it was pushed back. -/
def pastBlanks (file : PlainFile) : PlainFile :=
  match file.remaining.dropWhile ReadOptions.isBlank with
  | [] => file.exhaust
  | byte :: _ =>
      (file.advance ((file.remaining.takeWhile ReadOptions.isBlank).length + 1)).push byte

theorem pastBlanks_of_nil (nothing : file.remaining = []) : file.pastBlanks = file.exhaust := by
  simp [pastBlanks, nothing]

theorem pastBlanks_of_blank (left : file.remaining = byte :: rest)
    (blank : ReadOptions.isBlank byte = true) : file.pastBlanks = (file.advance 1).pastBlanks := by
  have passed := remaining_of_cons left
  have spent := file.exhaust_advance (by simp [left] : 1 ≤ file.remaining.length)
  simp only [pastBlanks, left, passed, List.dropWhile_cons_of_pos blank,
    List.takeWhile_cons_of_pos blank, List.length_cons, advance_advance, spent]
  cases rest.dropWhile ReadOptions.isBlank with
  | nil => rfl
  | cons first others =>
      dsimp only
      rw [Nat.add_comm 1]

theorem pastBlanks_of_inside (left : file.remaining = byte :: rest)
    (inside : ¬ReadOptions.isBlank byte = true) : file.pastBlanks = (file.advance 1).push byte := by
  simp [pastBlanks, left, inside]

theorem pastBlanks_direction (file : PlainFile) : file.pastBlanks.direction = file.direction := by
  rw [pastBlanks]
  split <;> rfl

theorem drop_takeWhile_length (bytes : Bytes) (inside : UInt8 → Bool) :
    bytes.drop (bytes.takeWhile inside).length = bytes.dropWhile inside := by
  have parts : bytes.takeWhile inside ++ bytes.dropWhile inside = bytes :=
    List.takeWhile_append_dropWhile
  have behind := congrArg (List.drop (bytes.takeWhile inside).length) parts
  rw [List.drop_left] at behind
  exact behind.symm

theorem readUntilStop_pastBlanks (file : PlainFile) (options : ReadOptions)
    (blanks : options.stopBlank = true) :
    file.pastBlanks.readUntilStop options = (file.skipBlanks options).readUntilStop options := by
  have behind := drop_takeWhile_length file.remaining ReadOptions.isBlank
  simp only [pastBlanks, skipBlanks, blanks, if_true]
  cases left : file.remaining.dropWhile ReadOptions.isBlank with
  | nil => rfl
  | cons byte rest =>
      rw [left, ← remaining_advance] at behind
      dsimp only
      rw [← advance_advance]
      exact readUntilStop_push _ options behind

theorem take_goTo (file : PlainFile) (count target : Nat) :
    (file.take count).2.goTo target = file.goTo target := by
  rw [take]
  split <;> rfl

theorem take_to_place (file : PlainFile) {start place length : Nat} (after : start ≤ place)
    (inside : place + length ≤ file.content.length) :
    ((file.goTo start).take (place - start + length)).2 = file.goTo (place + length) := by
  have enough : place - start + length ≤ (file.goTo start).remaining.length := by
    simp only [remaining, goTo, List.nil_append, List.length_drop]
    omega
  rw [take, if_pos enough]
  simp only [advance, goTo, List.drop_nil, List.length_nil, mk.injEq, true_and, and_true]
  omega

theorem place_inside {needle content : Bytes} {place : Nat} (nonempty : needle ≠ [])
    (stands : Bytes.leads needle (content.drop place) = true) :
    place + needle.length ≤ content.length := by
  apply Decidable.byContradiction
  intro beyond
  rw [Bytes.leads_eq_false_of_short nonempty (by omega)] at stands
  exact Bool.false_ne_true stands

theorem firstPlace?_inside {needle content : Bytes} {start finish place : Nat}
    (nonempty : needle ≠ []) (found : firstPlace? needle content start finish = some place) :
    start ≤ place ∧ place + needle.length ≤ content.length := by
  rw [firstPlace?] at found
  have member := List.mem_range'_1.mp (List.mem_of_find?_eq_some found)
  have stands := List.find?_some found
  exact ⟨member.1, place_inside nonempty stands⟩

theorem lastPlace?_inside {needle content : Bytes} {first last place : Nat}
    (nonempty : needle ≠ []) (found : lastPlace? needle content first last = some place) :
    place ≤ first ∧ place + needle.length ≤ content.length := by
  rw [lastPlace?] at found
  have member := List.mem_range'_1.mp (List.mem_reverse.mp (List.mem_of_find?_eq_some found))
  have stands := List.find?_some found
  exact ⟨by omega, place_inside nonempty stands⟩

end PlainFile

namespace Transfer

variable {channel : Channel} {node : NodeId} {file : PlainFile}

theorem available_yields (mirrors : channel.Mirrors node file) (reading : file.direction = .read) :
    available.Yields channel node file.remaining.length file := by
  obtain ⟨offset, disk, holds, shows⟩ := mirrors
  have written := shows.nothing_pending (by simp [← shows.direction, reading])
  refine ⟨channel, ?_, ⟨offset, disk, holds, shows⟩, rfl, fun other _ => Host.SameAt.refl other _⟩
  simp only [available, Host.remaining_regular holds, shows.remaining_eq written, Stream.aheadCount,
    List.length_append, List.length_drop]
  congr 2
  omega

theorem readPiece_yields (mirrors : channel.Mirrors node file) (reading : file.direction = .read)
    (options : ReadOptions) (room : Nat) :
    (readPiece options room).Yields channel node (file.piece options room).1
      (file.piece options room).2 := by
  induction room generalizing channel file with
  | zero =>
      rw [PlainFile.piece_zero]
      exact Yields.pure mirrors _
  | succ room ih =>
      apply (readByte_yields mirrors reading).bind
      intro after reached
      cases left : file.remaining with
      | nil =>
          rw [PlainFile.next_of_nil left] at reached ⊢
          rw [PlainFile.piece_of_nil left]
          exact Yields.pure reached _
      | cons byte rest =>
          rw [PlainFile.next_of_cons left] at reached ⊢
          dsimp only
          by_cases stops : options.stopsAt byte = true
          · rw [PlainFile.piece_of_stop left stops, if_pos stops]
            exact Yields.pure reached _
          · rw [PlainFile.piece_of_inside left (by simpa using stops), if_neg stops]
            exact (ih reached reading).bind fun last final => Yields.pure final _

/-- Gathering a text in pieces reads up to its stop. Each piece takes at least one byte, so as much fuel
as there are bytes is enough. -/
theorem readPieces_yields (mirrors : channel.Mirrors node file) (reading : file.direction = .read)
    (options : ReadOptions) {chunk fuel : Nat} (positive : 0 < chunk)
    (enough : file.remaining.length < fuel) :
    (readPieces options chunk fuel).Yields channel node (file.readUntilStop options).1
      (file.readUntilStop options).2 := by
  induction fuel generalizing channel file with
  | zero => omega
  | succ fuel ih =>
      apply (readPiece_yields mirrors reading options chunk).bind
      intro after reached
      have within := PlainFile.text_length_le options file.remaining
      by_cases full : chunk ≤ (PlainFile.text options file.remaining).length
      · simp only [PlainFile.piece, if_pos full] at reached ⊢
        rw [file.readUntilStop_advance options chunk full]
        have fewer : (file.advance chunk).remaining.length < fuel := by
          rw [PlainFile.remaining_advance, List.length_drop]
          omega
        exact (ih reached reading fewer).bind fun last final => Yields.pure final _
      · simp only [PlainFile.piece, if_neg full, PlainFile.readUntilStop] at reached ⊢
        cases stop : file.remaining[(PlainFile.text options file.remaining).length]? with
        | some byte =>
            rw [stop] at reached
            exact Yields.pure reached _
        | none =>
            rw [stop] at reached
            exact Yields.pure reached _

theorem skipBlanks_yields (mirrors : channel.Mirrors node file) (reading : file.direction = .read)
    {fuel : Nat} (enough : file.remaining.length < fuel) :
    (skipBlanks fuel).Yields channel node () file.pastBlanks := by
  induction fuel generalizing channel file with
  | zero => omega
  | succ fuel ih =>
      apply (readByte_yields mirrors reading).bind
      intro after reached
      cases left : file.remaining with
      | nil =>
          rw [PlainFile.next_of_nil left] at reached ⊢
          rw [PlainFile.pastBlanks_of_nil left]
          exact Yields.pure reached ()
      | cons byte rest =>
          rw [PlainFile.next_of_cons left] at reached ⊢
          dsimp only
          by_cases blank : ReadOptions.isBlank byte = true
          · rw [PlainFile.pastBlanks_of_blank left blank, if_pos blank]
            have fewer : (file.advance 1).remaining.length < fuel := by
              rw [PlainFile.remaining_of_cons left]
              rw [left, List.length_cons] at enough
              omega
            exact ih reached reading fewer
          · rw [PlainFile.pastBlanks_of_inside left blank, if_neg blank]
            exact unread_yields reached reading (PlainFile.tell_advance_pos mirrors.room) byte

/-- The end of a text is found from whichever state the white space before it leaves. -/
theorem gather_yields (mirrors : channel.Mirrors node file) (reading : file.direction = .read)
    (options : ReadOptions) {chunk : Nat} (positive : 0 < chunk) (start : PlainFile)
    (same : file.readUntilStop options = (start.skipBlanks options).readUntilStop options) :
    Yields (do
        let (text, stop) ← readPieces options chunk ((← available) + 1)
        match stop with
        | none => return if text.isEmpty then none else some text
        | some byte => return some (if options.strip then text else text ++ [byte]))
      channel node (start.readText options).1 (start.readText options).2 := by
  apply (available_yields mirrors reading).bind
  intro counted still
  apply (readPieces_yields still reading options positive (Nat.lt_succ_self _)).bind
  intro finished final
  rw [PlainFile.readText, ← same]
  revert final
  generalize file.readUntilStop options = outcome
  obtain ⟨⟨text, stop⟩, left⟩ := outcome
  intro final
  cases stop with
  | none => exact Yields.pure final _
  | some byte => exact Yields.pure final _

theorem readText_yields (mirrors : channel.Mirrors node file) (options : ReadOptions) {chunk : Nat}
    (positive : 0 < chunk) :
    (readText options chunk).Yields channel node ((file.toward .read).readText options).1
      ((file.toward .read).readText options).2 := by
  unfold readText
  apply (prepareRead_yields mirrors).bind
  intro ready inward
  by_cases blanks : options.stopBlank = true
  · rw [if_pos blanks]
    apply (available_yields inward rfl).bind
    intro counted still
    apply (skipBlanks_yields still rfl (Nat.lt_succ_self _)).bind
    intro passed begun
    exact gather_yields begun (PlainFile.pastBlanks_direction _) options positive _
      (PlainFile.readUntilStop_pastBlanks _ options blanks)
  · rw [if_neg blanks]
    have unskipped : (file.toward .read).skipBlanks options = file.toward .read := by
      rw [PlainFile.skipBlanks, if_neg blanks]
    exact gather_yields inward rfl options positive _ (by rw [unskipped])

theorem holds_content (mirrors : channel.Mirrors node file) (reading : file.direction = .read) :
    ∃ offset, channel.host.Holds channel.stream.descriptor node offset file.content := by
  obtain ⟨offset, disk, holds, shows⟩ := mirrors
  have written := shows.nothing_pending (by simp [← shows.direction, reading])
  exact ⟨offset, by rwa [shows.content_of_nothing_pending written]⟩

theorem search_yields (mirrors : channel.Mirrors node file) (needle : Bytes) {start : Nat}
    (finish : Nat) (inside : start ≤ Content.maxSize) :
    (search needle start finish).Yields channel node
      ((file.toward .read).search needle start finish).1
      ((file.toward .read).search needle start finish).2 := by
  unfold search
  apply (prepareRead_yields mirrors).bind
  intro ready inward
  apply (seek_yields inward inside).bind
  intro placed reached
  rw [PlainFile.search]
  by_cases empty : needle.isEmpty = true
  · rw [if_pos empty, if_pos empty]
    exact Yields.pure reached _
  · rw [if_neg empty, if_neg empty]
    have nonempty : needle ≠ [] := by simpa using empty
    obtain ⟨offset, holds⟩ := holds_content reached rfl
    apply Yields.get
    rw [Host.firstOccurrence?_regular holds nonempty start finish]
    simp only [PlainFile.goTo_content, PlainFile.toward_content]
    cases found : PlainFile.firstPlace? needle file.content start finish with
    | some place =>
        obtain ⟨after, stands⟩ := PlainFile.firstPlace?_inside nonempty found
        apply (skip_yields reached rfl _).bind
        intro finished final
        rw [(file.toward .read).take_to_place after stands] at final
        exact Yields.pure final _
    | none =>
        apply (skip_yields reached rfl _).bind
        intro finished final
        exact Yields.pure final _

theorem probe_yields (mirrors : channel.Mirrors node file) (reading : file.direction = .read)
    (needle : Bytes) {place : Nat} (inside : place ≤ Content.maxSize) :
    (probe needle place).Yields channel node () ((file.goTo place).take needle.length).2 := by
  apply (seek_yields mirrors inside).bind
  intro placed reached
  exact skip_yields reached reading needle.length

theorem searchBack_yields (mirrors : channel.Mirrors node file) (needle : Bytes) {first last : Nat}
    (inside : (if needle.isEmpty ∨ last ≤ first then first else last) ≤ Content.maxSize) :
    (searchBack needle first last).Yields channel node
      ((file.toward .read).searchBack needle first last).1
      ((file.toward .read).searchBack needle first last).2 := by
  unfold searchBack
  apply (prepareRead_yields mirrors).bind
  intro ready inward
  rw [PlainFile.searchBack]
  by_cases empty : needle.isEmpty = true
  · rw [if_pos (Or.inl empty)] at inside
    rw [if_pos empty, if_pos empty]
    exact (seek_yields inward inside).bind fun placed reached => Yields.pure reached _
  rw [if_neg empty, if_neg empty]
  have nonempty : needle ≠ [] := by simpa using empty
  by_cases inverted : first < last
  · rw [if_neg (by simpa [nonempty] using inverted)] at inside
    have nowhere : PlainFile.lastPlace? needle (file.toward .read).content first last = none := by
      rw [PlainFile.lastPlace?, show first + 1 - last = 0 by omega]
      rfl
    rw [if_pos inverted, nowhere]
    exact (seek_yields inward inside).bind fun placed reached => Yields.pure reached _
  rw [if_pos (Or.inr (by omega))] at inside
  rw [if_neg inverted]
  apply (probe_yields inward rfl needle inside).bind
  intro probed reached
  have reading : (((file.toward .read).goTo first).take needle.length).2.direction = .read := by
    rw [PlainFile.take_direction]
    rfl
  have elsewhere (target : Nat) :
      (((file.toward .read).goTo first).take needle.length).2.goTo target
        = (file.toward .read).goTo target := by
    rw [PlainFile.take_goTo]
    rfl
  obtain ⟨offset, holds⟩ := holds_content reached reading
  apply Yields.get
  rw [Host.lastOccurrence?_regular holds nonempty last (first + 1), ← PlainFile.lastPlace?]
  simp only [PlainFile.take_content, PlainFile.goTo_content, PlainFile.toward_content]
  cases found : PlainFile.lastPlace? needle file.content first last with
  | some place =>
      obtain ⟨before, stands⟩ := PlainFile.lastPlace?_inside nonempty found
      apply (probe_yields reached reading needle (Nat.le_trans before inside)).bind
      intro finished final
      have behind := (file.toward .read).take_to_place (Nat.le_refl place) stands
      rw [Nat.sub_self, Nat.zero_add] at behind
      rw [elsewhere, behind] at final
      exact Yields.pure final _
  | none =>
      have within : last ≤ Content.maxSize := by omega
      apply (seek_yields reached within).bind
      intro finished final
      rw [elsewhere] at final
      exact Yields.pure final _

end Transfer

end Calculator
