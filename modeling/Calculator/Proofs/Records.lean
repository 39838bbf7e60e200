import Calculator.Proofs.Reader
import Mathlib.Data.List.TakeWhile

/-!
# Texts that follow each other

What is read as one text depends only on the bytes that remain: white space before it is skipped where
asked for, the text goes up to the byte that stops it, and that byte is gone. So texts that are written
with a stop behind each, or words between white space, come back one by one, and then there are none.
-/

namespace Calculator

def ReadOptions.opening (options : ReadOptions) (bytes : Bytes) : Bytes :=
  if options.stopBlank then bytes.dropWhile isBlank else bytes

namespace PlainFile

variable (file : PlainFile) (options : ReadOptions)

theorem exhaust_remaining : file.exhaust.remaining = [] := by
  have all := file.remaining_advance file.remaining.length
  rw [List.drop_length] at all
  exact all

theorem skipBlanks_remaining : (file.skipBlanks options).remaining = options.opening file.remaining := by
  rw [skipBlanks, ReadOptions.opening]
  split
  · have behind := drop_takeWhile_length file.remaining ReadOptions.isBlank
    cases left : file.remaining.dropWhile ReadOptions.isBlank with
    | nil => exact file.exhaust_remaining
    | cons byte rest =>
        rw [left, ← remaining_advance] at behind
        exact behind
  · rfl

end PlainFile

namespace ReadOptions

/-- The first text of the bytes, from where it begins, and the bytes behind it and its stop. -/
def cutOff (options : ReadOptions) (begun : Bytes) : Option Bytes × Bytes :=
  let read := PlainFile.text options begun
  match begun.drop read.length with
  | [] => (if read.isEmpty then none else some read, [])
  | stop :: rest => (some (if options.strip then read else read ++ [stop]), rest)

def cut (options : ReadOptions) (bytes : Bytes) : Option Bytes × Bytes :=
  options.cutOff (options.opening bytes)

def cuts (options : ReadOptions) : Nat → Bytes → List (Option Bytes)
  | 0, _ => []
  | count + 1, bytes => (options.cut bytes).1 :: options.cuts count (options.cut bytes).2

variable {options : ReadOptions} {text rest : Bytes} {stop : UInt8}

theorem readText_cut (file : PlainFile) (options : ReadOptions) :
    (file.readText options).1 = (options.cut file.remaining).1
      ∧ (file.readText options).2.remaining = (options.cut file.remaining).2 := by
  rw [PlainFile.readText, cut, ← file.skipBlanks_remaining options, PlainFile.readUntilStop, cutOff]
  generalize file.skipBlanks options = begun
  have ahead : (begun.remaining.drop (PlainFile.text options begun.remaining).length).head?
      = begun.remaining[(PlainFile.text options begun.remaining).length]? := List.head?_drop
  have behind : (begun.advance ((PlainFile.text options begun.remaining).length + 1)).remaining
      = (begun.remaining.drop (PlainFile.text options begun.remaining).length).tail := by
    rw [PlainFile.remaining_advance, List.tail_drop]
  cases left : begun.remaining.drop (PlainFile.text options begun.remaining).length with
  | nil =>
      rw [left] at ahead
      rw [← ahead]
      exact ⟨rfl, begun.exhaust_remaining⟩
  | cons byte rest =>
      rw [left] at ahead behind
      rw [← ahead]
      exact ⟨rfl, behind⟩

theorem cutOff_nil : options.cutOff [] = (none, []) := rfl

theorem cutOff_of_stop (stripped : options.strip = true)
    (inside : ∀ byte ∈ text, options.stopsAt byte = false) (stops : options.stopsAt stop = true) :
    options.cutOff (text ++ stop :: rest) = (some text, rest) := by
  have passes : ∀ byte ∈ text, (!options.stopsAt byte) = true := by
    intro byte present
    rw [inside byte present]
    rfl
  have read : PlainFile.text options (text ++ stop :: rest) = text := by
    rw [PlainFile.text, List.takeWhile_append_of_pos passes, List.takeWhile_cons_of_neg (by simp [stops]),
      List.append_nil]
  rw [cutOff, read, List.drop_left, stripped]
  rfl

theorem cutOff_of_end (nonempty : text ≠ []) (inside : ∀ byte ∈ text, options.stopsAt byte = false) :
    options.cutOff text = (some text, []) := by
  have read : PlainFile.text options text = text := by
    rw [PlainFile.text, List.takeWhile_eq_self_iff]
    intro byte present
    rw [inside byte present]
    rfl
  rw [cutOff, read, List.drop_length, if_neg (by simpa using nonempty)]

/-- Texts with a stop behind each are cut off one by one, and then there are none. -/
theorem cuts_of_stops (unskipped : options.stopBlank = false) (stripped : options.strip = true)
    (stops : options.stopsAt stop = true) {texts : List Bytes}
    (inside : ∀ text ∈ texts, ∀ byte ∈ text, options.stopsAt byte = false) :
    options.cuts (texts.length + 1) (texts.flatMap fun text => text ++ [stop])
      = texts.map some ++ [none] := by
  have begins (bytes : Bytes) : options.cut bytes = options.cutOff bytes := by
    rw [cut, opening, if_neg (by simp [unskipped])]
  induction texts with
  | nil => rw [List.flatMap_nil, List.length_nil, cuts, begins, cutOff_nil]; rfl
  | cons text others ih =>
      obtain ⟨first, later⟩ := List.forall_mem_cons.mp inside
      rw [List.flatMap_cons, List.append_assoc, List.singleton_append, List.length_cons, cuts, begins,
        cutOff_of_stop stripped first stops, ih later]
      rfl

/-! ## Words between white space -/

theorem word_stopsAt (byte : UInt8) : word.stopsAt byte = isBlank byte := by
  simp [word, stopsAt]

theorem word_opening (bytes : Bytes) : word.opening bytes = bytes.dropWhile isBlank := rfl

def spaced (lead : Bytes) (words : List (Bytes × Bytes)) : Bytes :=
  lead ++ words.flatMap fun word => word.1 ++ word.2

/-- The words have no white space in them, and only the last one may have none behind it. -/
structure Spaced (lead : Bytes) (words : List (Bytes × Bytes)) : Prop where
  lead : ∀ byte ∈ lead, isBlank byte = true
  nonempty : ∀ word ∈ words, word.1 ≠ []
  solid : ∀ word ∈ words, ∀ byte ∈ word.1, isBlank byte = false
  blanks : ∀ word ∈ words, ∀ byte ∈ word.2, isBlank byte = true
  apart : ∀ word ∈ words.dropLast, word.2 ≠ []

variable {lead gap : Bytes} {words : List (Bytes × Bytes)}

theorem Spaced.tail (spaced : Spaced lead ((text, gap) :: words)) : Spaced gap.tail words where
  lead := fun byte present => spaced.blanks _ List.mem_cons_self byte (List.mem_of_mem_tail present)
  nonempty := fun word present => spaced.nonempty word (List.mem_cons_of_mem _ present)
  solid := fun word present => spaced.solid word (List.mem_cons_of_mem _ present)
  blanks := fun word present => spaced.blanks word (List.mem_cons_of_mem _ present)
  apart := by
    intro word present
    cases words with
    | nil => cases present
    | cons next others => exact spaced.apart word (List.mem_cons_of_mem _ present)

theorem Spaced.begins (spaced : Spaced lead ((text, gap) :: words)) :
    word.opening (lead ++ (text ++ rest)) = text ++ rest := by
  obtain ⟨first, others, rfl⟩ := List.exists_cons_of_ne_nil (spaced.nonempty _ List.mem_cons_self)
  have solid := spaced.solid _ List.mem_cons_self first List.mem_cons_self
  rw [word_opening, List.dropWhile_append_of_pos spaced.lead, List.cons_append,
    List.dropWhile_cons_of_neg (by simp [solid])]

/-- A word is cut off with the white space before it and the first white space behind it. -/
theorem Spaced.cut (apart : Spaced lead ((text, gap) :: words)) :
    word.cut (spaced lead ((text, gap) :: words)) = (some text, spaced gap.tail words) := by
  have inside : ∀ byte ∈ text, word.stopsAt byte = false := by
    intro byte present
    rw [word_stopsAt]
    exact apart.solid _ List.mem_cons_self byte present
  rw [ReadOptions.cut, spaced, List.flatMap_cons, List.append_assoc, apart.begins]
  cases gap with
  | nil =>
      -- Nothing separates the word from another one, so there is none.
      have alone : words = [] := by
        cases words with
        | nil => rfl
        | cons next others => exact absurd rfl (apart.apart _ List.mem_cons_self)
      subst alone
      have read : word.cutOff text = (some text, []) :=
        cutOff_of_end (apart.nonempty _ List.mem_cons_self) inside
      simpa [spaced] using read
  | cons stop more =>
      have stops : word.stopsAt stop = true := by
        rw [word_stopsAt]
        exact apart.blanks _ List.mem_cons_self stop List.mem_cons_self
      rw [List.cons_append, cutOff_of_stop rfl inside stops]
      rfl

theorem Spaced.cuts (apart : Spaced lead words) :
    word.cuts ((words.map Prod.fst).length + 1) (spaced lead words)
      = (words.map Prod.fst).map some ++ [none] := by
  induction words generalizing lead with
  | nil =>
      have nothing : word.opening (spaced lead []) = [] := by
        rw [word_opening, spaced, List.flatMap_nil, List.append_nil, List.dropWhile_eq_nil_iff]
        exact apart.lead
      rw [List.map_nil, List.length_nil, ReadOptions.cuts, ReadOptions.cut, nothing, cutOff_nil]
      rfl
  | cons first others ih =>
      rw [List.map_cons, List.length_cons, ReadOptions.cuts, apart.cut, ih apart.tail]
      rfl

end ReadOptions

end Calculator
