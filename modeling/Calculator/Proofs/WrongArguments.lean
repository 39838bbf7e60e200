import Calculator.Proofs.BuiltinCalls
import Calculator.Proofs.RewoundFiles
import Calculator.Proofs.WrittenTexts

/-!
# Arguments of the wrong type

Five builtins take any number of arguments: files, or a file and then texts. Those that close files and
write texts look at all of their arguments first, and then a wrong one leaves the machine as it was. A
flush and a rewind look at one argument after the other, and so have acted on the files before the wrong
one when they answer it, or have met the error of one of them instead.
-/

namespace Calculator

namespace Files

variable {files : Files}

def Emptied (files : Files) (id : FileId) : Prop :=
  ∀ entry ∈ files.table.entries, entry.id = id → entry.stream.pending = []

/-- A rewind leaves no output in its file, and the other files as they were. -/
theorem Flushable.rewind_leaves (flushable : files.Flushable) (id : FileId) :
    (rewind id files).2.Flushable
      ∧ ∀ entry ∈ (rewind id files).2.table.entries,
        (entry.id = id → entry.stream.pending = [])
          ∧ (entry.id ≠ id → entry ∈ files.table.entries) := by
  have served : Effect.Always (Served id false) (rewind id) := rewind_served id
  have path := (served files).path
  cases found : files.table.find? id with
  | none =>
      have still : (rewind id files).2 = files :=
        congrArg Prod.snd (Effect.bind_error (entry_missing found))
      rw [still]
      exact ⟨flushable, missed_leaves found⟩
  | some entry =>
      obtain ⟨ids, left⟩ := run_leaves found
        (Transfer.rewind_channel { stream := entry.stream, host := files.host }).2.2
      rw [← rewind_run found] at ids left
      exact ⟨flushable.path path ids, left⟩

end Files

namespace Builtin

open Effect (Upholds)

/-- The builtins that take any number of arguments. -/
inductive Variadic where
  | fclose
  | fflush
  | fputs
  | fputstr
  | rewind
  deriving DecidableEq, Repr

namespace Variadic

def name : Variadic → String
  | fclose => "fclose"
  | fflush => "fflush"
  | fputs => "fputs"
  | fputstr => "fputstr"
  | rewind => "rewind"

def least : Variadic → Nat
  | fputs | fputstr => 2
  | _ => 0

/-- The error codes for a value that is no file, and for one that is no text. -/
def codes : Variadic → ErrorCode × ErrorCode
  | fclose => (.fcloseFile, .fcloseFile)
  | fflush => (.fflushFile, .fflushFile)
  | fputs => (.fputsFile, .fputsText)
  | fputstr => (.fputstrFile, .fputstrText)
  | rewind => (.rewindFile, .rewindFile)

/-- A text is wanted at this place, else a file. -/
def wantsText (builtin : Variadic) (index : Nat) : Bool :=
  match builtin with
  | fputs | fputstr => index != 0
  | _ => false

def admits (builtin : Variadic) (index : Nat) (value : Value) : Bool :=
  if builtin.wantsText index then value.text?.isSome else value.file?.isSome

def Wrong (builtin : Variadic) (arguments : List Value) (index : Nat) : Prop :=
  ∃ value, arguments[index]? = some value ∧ builtin.admits index value = false

def typeError (builtin : Variadic) (index : Nat) : ErrorCode :=
  if builtin.wantsText index then builtin.codes.2 else builtin.codes.1

def checksFirst : Variadic → Bool
  | fflush | rewind => false
  | _ => true

/-- What is done with a file before the next argument is looked at. -/
def acts (builtin : Variadic) (id : FileId) : BuiltinM PUnit :=
  match builtin with
  | fflush => onFiles (hostFaultOr .fflushFile) (Files.flush id)
  | rewind => onFiles FileError.code (Files.rewind id)
  | _ => return ()

def actsBefore (builtin : Variadic) (arguments : List Value) (index : Nat) : BuiltinM PUnit :=
  ((arguments.take index).filterMap Value.file?).forM builtin.acts

end Variadic

section Traversals

variable {α : Type} {code : ErrorCode} {wrong : Value} {rest : List Value}

theorem mapM_wrong {check : Value → BuiltinM α} {right : List Value}
    (passes : ∀ value ∈ right, ∃ result, check value = pure result) (fails : check wrong = throw code) :
    (right ++ wrong :: rest).mapM check = throw code := by
  induction right with
  | nil =>
      rw [List.nil_append, List.mapM_cons, fails]
      rfl
  | cons value later ih =>
      obtain ⟨result, passed⟩ := passes value List.mem_cons_self
      rw [List.cons_append, List.mapM_cons, passed, pure_bind,
        ih fun other listed => passes other (List.mem_cons_of_mem _ listed)]
      rfl

theorem fileOr_file {value : Value} {id : FileId} (file : value.file? = some id) (code : ErrorCode) :
    fileOr code value = pure id := by
  rw [fileOr, file]

theorem fileOr_wrong {value : Value} (missing : value.file?.isSome = false) (code : ErrorCode) :
    fileOr code value = throw code := by
  rw [Option.isSome_eq_false_iff, Option.isNone_iff_eq_none] at missing
  rw [fileOr, missing]

theorem textOr_wrong {value : Value} (missing : value.text?.isSome = false) (code : ErrorCode) :
    textOr code value = throw code := by
  rw [Option.isSome_eq_false_iff, Option.isNone_iff_eq_none] at missing
  rw [textOr, missing]

theorem fileOr_passes {value : Value} (file : value.file?.isSome = true) (code : ErrorCode) :
    ∃ id, fileOr code value = pure id := by
  obtain ⟨id, file⟩ := Option.isSome_iff_exists.mp file
  exact ⟨id, fileOr_file file code⟩

theorem textOr_passes {value : Value} (text : value.text?.isSome = true) (code : ErrorCode) :
    ∃ bytes, textOr code value = pure bytes := by
  obtain ⟨bytes, text⟩ := Option.isSome_iff_exists.mp text
  refine ⟨bytes, ?_⟩
  rw [textOr, text]

/-- Where each file is acted on before the next value is looked at, all before the wrong one are. -/
theorem forM_wrong {act : FileId → BuiltinM PUnit} {right : List Value}
    (files : ∀ value ∈ right, value.file?.isSome = true) (missing : wrong.file?.isSome = false) :
    ((right ++ wrong :: rest).forM fun value => do
        let id ← fileOr code value
        act id)
      = (do
        (right.filterMap Value.file?).forM act
        throw code) := by
  induction right with
  | nil =>
      show (fileOr code wrong >>= act) >>= (fun _ => rest.forM _) = _
      rw [fileOr_wrong missing]
      rfl
  | cons value later ih =>
      obtain ⟨id, file⟩ := Option.isSome_iff_exists.mp (files value List.mem_cons_self)
      have others := ih fun other listed => files other (List.mem_cons_of_mem _ listed)
      show (fileOr code value >>= act) >>= (fun _ => (later ++ wrong :: rest).forM _) = _
      rw [fileOr_file file, pure_bind, others, List.filterMap_cons_some file]
      exact (bind_assoc _ _ _).symm

end Traversals

section Filled

variable {arguments : List Value} (filled : arguments.isEmpty = false)

include filled

theorem fclose_filled : fclose arguments = (do
    let ids ← arguments.mapM (fileOr .fcloseFile)
    ids.forM fun id => onFiles FileError.code (Files.close id)
    return Value.null) := by
  cases arguments with
  | nil => cases filled
  | cons value rest => rfl

theorem fflush_filled : fflush arguments = (do
    arguments.forM fun value => do
      let id ← fileOr .fflushFile value
      onFiles (hostFaultOr .fflushFile) (Files.flush id)
    return Value.null) := by
  cases arguments with
  | nil => cases filled
  | cons value rest => rfl

theorem rewind_filled : rewind arguments = (do
    arguments.forM fun value => do
      let id ← fileOr .rewindFile value
      onFiles FileError.code (Files.rewind id)
    return Value.null) := by
  cases arguments with
  | nil => cases filled
  | cons value rest => rfl

end Filled

section Texts

variable {fileCode textCode writeCode : ErrorCode} {put : FileId → Bytes → FileM Unit} {value wrong : Value}

theorem putTexts_no_file (missing : value.file?.isSome = false) (texts : List Value) :
    putTexts fileCode textCode writeCode put (value :: texts) = throw fileCode := by
  show fileOr fileCode value >>= _ = _
  rw [fileOr_wrong missing]
  rfl

theorem putTexts_no_text {right rest : List Value} (file : value.file?.isSome = true)
    (texts : ∀ value ∈ right, value.text?.isSome = true) (missing : wrong.text?.isSome = false) :
    putTexts fileCode textCode writeCode put (value :: (right ++ wrong :: rest)) = throw textCode := by
  obtain ⟨id, passed⟩ := fileOr_passes file fileCode
  show fileOr fileCode value >>= (fun id => (right ++ wrong :: rest).mapM (textOr textCode) >>= _) = _
  rw [passed, pure_bind,
    mapM_wrong (fun value listed => textOr_passes (texts value listed) textCode) (textOr_wrong missing _)]
  rfl

end Texts

namespace Variadic

variable {builtin : Variadic} {arguments : List Value} {index : Nat}

def body : Variadic → List Value → BuiltinM Value
  | fclose => Builtin.fclose
  | fflush => Builtin.fflush
  | fputs => Builtin.fputs
  | fputstr => Builtin.fputstr
  | rewind => Builtin.rewind

theorem call_settles (builtin : Variadic) (admitted : builtin.least ≤ arguments.length)
    (machine : Machine) :
    Registry.standard.call builtin.name arguments machine
      = settle (builtin.body arguments) machine := by
  have called : Registry.standard.call builtin.name
      = countedFrom builtin.name builtin.least builtin.body := by
    cases builtin <;> rfl
  rw [called, countedFrom, if_neg (Nat.not_lt.mpr admitted)]

theorem actsBefore_nothing (first : builtin.checksFirst = true) (arguments : List Value) (index : Nat) :
    builtin.actsBefore arguments index = pure () := by
  unfold actsBefore
  induction (arguments.take index).filterMap Value.file? with
  | nil => rfl
  | cons id rest ih =>
      show builtin.acts id >>= (fun _ => rest.forM builtin.acts) = _
      rw [ih]
      cases builtin <;> first | rfl | cases first

/-- Before the first wrong argument all are of the right type. -/
theorem split_first (first : IsLeast {index | builtin.Wrong arguments index} index) :
    ∃ wrong rest, arguments = arguments.take index ++ wrong :: rest
      ∧ builtin.admits index wrong = false
      ∧ ∀ place value, (arguments.take index)[place]? = some value →
        builtin.admits place value = true := by
  obtain ⟨⟨wrong, listed, refused⟩, least⟩ := first
  obtain ⟨inside, rfl⟩ := List.getElem?_eq_some_iff.mp listed
  refine ⟨_, arguments.drop (index + 1), ?_, refused, fun place value right => ?_⟩
  · rw [List.cons_getElem_drop_succ, List.take_append_drop]
  · by_contra fails
    obtain ⟨early, there⟩ := List.getElem?_eq_some_iff.mp right
    rw [List.length_take] at early
    rw [List.getElem?_take_of_lt (by omega)] at right
    have late := least ⟨value, right, by simpa using fails⟩
    omega

/-- Where texts follow one file, the first wrong argument is all that counts. -/
theorem putTexts_wrong {fileCode textCode writeCode : ErrorCode} {put : FileId → Bytes → FileM Unit}
    (first : IsLeast {index | builtin.Wrong arguments index} index)
    (texts : ∀ place, builtin.wantsText place = (place != 0))
    (codes : builtin.codes = (fileCode, textCode)) :
    putTexts fileCode textCode writeCode put arguments = throw (builtin.typeError index) := by
  obtain ⟨wrong, rest, split, refused, right⟩ := split_first first
  unfold admits at refused right
  cases index with
  | zero =>
      rw [texts] at refused
      rw [split, typeError, texts, codes]
      exact putTexts_no_file refused rest
  | succ place =>
      cases arguments with
      | nil => cases split
      | cons value later =>
          rw [List.take_succ_cons] at split right
          have file := right 0 value rfl
          rw [texts] at file refused
          rw [split, typeError, texts, codes]
          refine putTexts_no_text file (fun text listed => ?_) refused
          obtain ⟨later, there⟩ := List.mem_iff_getElem?.mp listed
          have found := right (later + 1) text there
          rwa [texts] at found

/-- What stands before the first wrong argument is acted on, or nothing is. -/
theorem body_wrong (first : IsLeast {index | builtin.Wrong arguments index} index) :
    builtin.body arguments
      = (do
        builtin.actsBefore arguments index
        throw (builtin.typeError index)) := by
  obtain ⟨wrong, rest, split, refused, right⟩ := split_first first
  have filled : arguments.isEmpty = false := by
    rw [split, List.isEmpty_eq_false_iff]
    exact List.append_ne_nil_of_right_ne_nil _ (List.cons_ne_nil _ _)
  have files (none : ∀ place, builtin.wantsText place = false) :
      ∀ value ∈ arguments.take index, value.file?.isSome = true := by
    intro value listed
    obtain ⟨place, there⟩ := List.mem_iff_getElem?.mp listed
    have found := right place value there
    rwa [admits, none] at found
  cases builtin with
  | fclose =>
      rw [actsBefore_nothing rfl, pure_bind]
      show Builtin.fclose arguments = _
      have passes (value : Value) (listed : value ∈ arguments.take index) :=
        fileOr_passes (files (fun _ => rfl) value listed) .fcloseFile
      rw [fclose_filled filled, split, mapM_wrong passes (fileOr_wrong refused _)]
      rfl
  | fputs =>
      rw [actsBefore_nothing rfl, pure_bind]
      exact putTexts_wrong first (fun _ => rfl) rfl
  | fputstr =>
      rw [actsBefore_nothing rfl, pure_bind]
      exact putTexts_wrong first (fun _ => rfl) rfl
  | fflush =>
      show Builtin.fflush arguments = _
      rw [fflush_filled filled]
      conv_lhs => rw [split, forM_wrong (files fun _ => rfl) refused]
      exact bind_assoc _ _ _
  | rewind =>
      show Builtin.rewind arguments = _
      rw [rewind_filled filled]
      conv_lhs => rw [split, forM_wrong (files fun _ => rfl) refused]
      exact bind_assoc _ _ _

/-- A flush or a rewind leaves no output in its file, and none in a file where there was none. -/
theorem acts_empties (later : builtin.checksFirst = false) (id : FileId) {machine : Machine}
    (flushable : machine.files.Flushable) :
    (builtin.acts id machine).2.files.Flushable ∧ (builtin.acts id machine).2.files.Emptied id
      ∧ ∀ other, machine.files.Emptied other → (builtin.acts id machine).2.files.Emptied other := by
  have step {after : Files} (kept : after.Flushable)
      (left : ∀ entry ∈ after.table.entries, (entry.id = id → entry.stream.pending = [])
        ∧ (entry.id ≠ id → entry ∈ machine.files.table.entries)) :
      after.Flushable ∧ after.Emptied id
        ∧ ∀ other, machine.files.Emptied other → after.Emptied other := by
    refine ⟨kept, fun entry listed => (left entry listed).1, fun other emptied entry listed own => ?_⟩
    by_cases same : entry.id = id
    · exact (left entry listed).1 same
    · exact emptied entry ((left entry listed).2 same) own
  cases builtin with
  | fflush =>
      obtain ⟨kept, _, left⟩ := flushable.flush_leaves id
      exact step kept left
  | rewind =>
      obtain ⟨kept, left⟩ := flushable.rewind_leaves id
      exact step kept left
  | fclose => cases later
  | fputs => cases later
  | fputstr => cases later

theorem forM_acts_empties (later : builtin.checksFirst = false) (ids : List FileId) {machine : Machine}
    (flushable : machine.files.Flushable) (passed : (ids.forM builtin.acts machine).1 = .ok ()) :
    ∀ id ∈ ids, (ids.forM builtin.acts machine).2.files.Emptied id := by
  induction ids generalizing machine with
  | nil => exact fun id listed => by cases listed
  | cons first rest ih =>
      obtain ⟨kept, own, _⟩ := acts_empties later first flushable
      obtain ⟨_, between, acted, others⟩ := Effect.steps_of_ok (Effect.run_of_answer passed)
      rw [acted] at kept own
      have ran : (first :: rest).forM builtin.acts machine = rest.forM builtin.acts between :=
        Effect.bind_ok acted
      rw [ran] at passed ⊢
      have still : Upholds (fun machine => machine.files.Flushable ∧ machine.files.Emptied first)
          (rest.forM builtin.acts) fun _ => True :=
        Upholds.forM (fun other machine ⟨flushable, emptied⟩ =>
          have ⟨kept, _, left⟩ := acts_empties later other flushable
          ⟨⟨kept, left first emptied⟩, fun _ _ => trivial⟩) rest
      intro id listed
      rcases List.mem_cons.mp listed with rfl | behind
      · exact (still between ⟨kept, own⟩).1.2
      · exact ih kept passed id behind

/-- The answer to a body that ends with an error code, or with that of a step before it. -/
def refusal (builtin : Variadic) (index : Nat) (acted : Except ErrorCode PUnit) : Value :=
  match acted with
  | .ok _ => Value.ofError (builtin.typeError index)
  | .error code => Value.ofError code

theorem settle_refusal (act : BuiltinM PUnit) (machine : Machine) :
    settle (do
        act
        throw (builtin.typeError index)) machine
      = (.ok (builtin.refusal index (act machine).1), (act machine).2) := by
  unfold settle
  rcases steps : act machine with ⟨answer, after⟩
  cases answer with
  | ok _ =>
      rw [Effect.bind_ok steps]
      rfl
  | error code =>
      rw [Effect.bind_error steps]
      rfl

theorem refusal_eq_typeError (acted : Except ErrorCode PUnit) :
    builtin.refusal index acted = Value.ofError (builtin.typeError index)
      ↔ acted = .ok () ∨ acted = .error (builtin.typeError index) := by
  cases acted with
  | ok _ => exact ⟨fun _ => .inl rfl, fun _ => rfl⟩
  | error code =>
      constructor
      · intro same
        cases same
        exact .inr rfl
      · rintro (same | same) <;> cases same
        rfl

end Variadic

/-- A builtin answers the first of its arguments that is of the wrong type, once it has done what it
does with the arguments before that one, or the error that it meets there. Those that look at all of
their arguments first leave the machine as it was. A flush and a rewind do so just where they change
nothing in the files before the wrong argument; any output that waited in these is out then. -/
theorem wrong_argument_is_answered (builtin : Variadic) (arguments : List Value) (machine : Machine)
    (admitted : builtin.least ≤ arguments.length) (wrong : ∃ index, builtin.Wrong arguments index) :
    ∃ index, IsLeast {index | builtin.Wrong arguments index} index ∧
      let acted := builtin.actsBefore arguments index machine
      let ran := Registry.standard.call builtin.name arguments machine
      let refused := (.ok (Value.ofError (builtin.typeError index)), machine)
      ran = (.ok (builtin.refusal index acted.1), acted.2)
        ∧ (builtin.checksFirst = true → ran = refused)
        ∧ (ran = refused ↔ acted.2 = machine
          ∧ (acted.1 = .ok () ∨ acted.1 = .error (builtin.typeError index)))
        ∧ (builtin.checksFirst = false → machine.files.Flushable → acted.1 = .ok () →
          ∀ value ∈ arguments.take index, ∀ id, value.file? = some id → ran.2.files.Emptied id) := by
  classical
  have first : IsLeast {index | builtin.Wrong arguments index} (Nat.find wrong) :=
    ⟨Nat.find_spec wrong, fun _ => Nat.find_min' wrong⟩
  refine ⟨Nat.find wrong, first, ?_⟩
  generalize Nat.find wrong = index at first ⊢
  intro acted ran refused
  have outcome : ran = (.ok (builtin.refusal index acted.1), acted.2) := by
    show Registry.standard.call builtin.name arguments machine = _
    rw [Variadic.call_settles builtin admitted, Variadic.body_wrong first, Variadic.settle_refusal]
  have same : ran = refused ↔ acted.2 = machine
      ∧ (acted.1 = .ok () ∨ acted.1 = .error (builtin.typeError index)) := by
    rw [outcome, ← Variadic.refusal_eq_typeError, Prod.mk.injEq, Except.ok.injEq, and_comm]
  refine ⟨outcome, fun early => ?_, same, fun later flushable passed value before id file => ?_⟩
  · have nothing : acted = (.ok (), machine) := by
      show builtin.actsBefore arguments index machine = _
      rw [Variadic.actsBefore_nothing early]
      rfl
    rw [same, nothing]
    exact ⟨rfl, .inl rfl⟩
  · rw [outcome]
    exact Variadic.forM_acts_empties later _ flushable passed id
      (List.mem_filterMap.mpr ⟨value, before, file⟩)

namespace WrongSample

def files : Files :=
  FileCall.afterAll [.openFile "a" "r+", .ask (.write ⟨3⟩ [0x78, 0x79])]
    (Files.new OneFile.host 20 1024 false)

def machine : Machine := { Machine.new {} OneFile.host with files := files }

def arguments : List Value := [Value.ofFile ⟨3⟩, Value.ofInt 1]

theorem number_behind_file_is_answered :
    Variadic.fflush.Wrong arguments 1
      ∧ (Registry.standard.call "fflush" arguments machine).1 = .ok (Value.ofError .fflushFile)
      ∧ (Registry.standard.call "fflush" arguments machine).2.files.Emptied ⟨3⟩ := by
  have wrong : Variadic.fflush.Wrong arguments 1 := ⟨Value.ofInt 1, rfl, rfl⟩
  obtain ⟨index, first, outcome, _, _, emptied⟩ :=
    wrong_argument_is_answered .fflush arguments machine (Nat.zero_le _) ⟨1, wrong⟩
  have second : index = 1 := by
    have early := first.2 wrong
    have behind : index ≠ 0 := by
      rintro rfl
      obtain ⟨value, listed, refused⟩ := first.1
      cases listed
      cases refused
    omega
  subst second
  have passed : (Variadic.fflush.actsBefore arguments 1 machine).1 = .ok () := by cbv
  rw [passed] at outcome
  refine ⟨wrong, congrArg Prod.fst outcome, ?_⟩
  exact emptied rfl (Files.flushable_over_runs OneFile.host 20 1024 false _) passed (Value.ofFile ⟨3⟩)
    List.mem_cons_self ⟨3⟩ rfl

/-- The output is in the file, or the file is at its start, when the number is answered. -/
theorem file_before_number_is_acted_on :
    (Registry.standard.call "fflush" arguments machine).1 = .ok (Value.ofError .fflushFile)
      ∧ machine.files.host.peek 3 0 6 = [0x61, 0x62, 0x63, 0x64, 0x65]
      ∧ (Registry.standard.call "fflush" arguments machine).2.files.host.peek 3 0 6
        = [0x78, 0x79, 0x63, 0x64, 0x65]
      ∧ (Registry.standard.call "rewind" arguments machine).1 = .ok (Value.ofError .rewindFile)
      ∧ (Files.tell ⟨3⟩ machine.files).1 = .ok 2
      ∧ (Files.tell ⟨3⟩ (Registry.standard.call "rewind" arguments machine).2.files).1 = .ok 0 := by
  have flush : Registry.standard.call "fflush" arguments machine
      = settle (fflush arguments) machine :=
    Variadic.call_settles .fflush (Nat.zero_le _) machine
  have rewind : Registry.standard.call "rewind" arguments machine
      = settle (rewind arguments) machine :=
    Variadic.call_settles .rewind (Nat.zero_le _) machine
  rw [flush, rewind]
  refine ⟨?_, ?_, ?_, ?_, ?_, ?_⟩ <;> cbv

end WrongSample

end Builtin

end Calculator
