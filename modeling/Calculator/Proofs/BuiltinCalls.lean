import Calculator.Builtin.Registry
import Calculator.Proofs.Effect

/-!
# Calls of builtins

Reading arguments changes nothing. A file builtin changes nothing but files, and returns a value that
holds nothing: a number or text of its own, a handle, an error code or null. So what holds of the
machine apart from its files is upheld by all of them, and a property of calls in general has to be
checked for the block builtins only.
-/

namespace Calculator

/-- The value shares no payload and contains no block. -/
def Value.isBare (value : Value) : Bool :=
  match value.data with
  | .null | .namedBlock _ | .file _ | .error _ => true
  | .number payload => payload.mark.isNone
  | .text payload => payload.mark.isNone
  | _ => false

def Value.Bare (value : Value) : Prop :=
  value.isBare = true

namespace Effect

variable {ε σ α β : Type} {invariant : σ → Prop}

theorem Upholds.ite {condition : Prop} [Decidable condition] {first second : ExceptT ε (StateM σ) α}
    {promised : α → Prop} (one : Upholds invariant first promised)
    (other : Upholds invariant second promised) :
    Upholds invariant (if condition then first else second) promised := by
  split
  · exact one
  · exact other

theorem Upholds.forM {body : α → ExceptT ε (StateM σ) PUnit}
    (each : ∀ value, Upholds invariant (body value) fun _ => True) (values : List α) :
    Upholds invariant (values.forM body) fun _ => True := by
  induction values with
  | nil => exact Upholds.pure trivial
  | cons value rest ih => exact Upholds.bind_any (each value) fun _ => ih

theorem Upholds.mapM {body : α → ExceptT ε (StateM σ) β}
    (each : ∀ value, Upholds invariant (body value) fun _ => True) (values : List α) :
    Upholds invariant (values.mapM body) fun _ => True := by
  induction values with
  | nil => exact Upholds.pure trivial
  | cons value rest ih =>
      rw [List.mapM_cons]
      apply Upholds.bind_any (each value)
      intro _
      exact Upholds.bind_any ih fun _ => Upholds.pure trivial

end Effect

namespace Builtin

open Effect (Turns Upholds)

variable {invariant : Machine → Prop}

section Arguments

variable (code : ErrorCode) (value : Value)

theorem fileOr_upholds : Upholds invariant (fileOr code value) fun _ => True := by
  unfold fileOr
  split
  · exact Upholds.pure trivial
  · exact Upholds.throw code

theorem textOr_upholds : Upholds invariant (textOr code value) fun _ => True := by
  unfold textOr
  split
  · exact Upholds.pure trivial
  · exact Upholds.throw code

theorem wordOr_upholds : Upholds invariant (wordOr code value) fun _ => True := by
  unfold wordOr
  split
  · exact Upholds.pure trivial
  · exact Upholds.throw code

theorem integerOr_upholds : Upholds invariant (integerOr code value) fun _ => True := by
  unfold integerOr
  split
  · exact Upholds.pure trivial
  · exact Upholds.throw code

end Arguments

theorem modeArgument_upholds (code : ErrorCode) (arguments : List Value) (index : Nat) :
    Upholds invariant (modeArgument code arguments index) fun _ => True := by
  unfold modeArgument
  split
  · exact Upholds.bind_any (textOr_upholds _ _) fun _ => Upholds.pure trivial
  · exact Upholds.pure trivial

theorem integerArgument_upholds (code : ErrorCode) (arguments : List Value) (index : Nat) :
    Upholds invariant (integerArgument? code arguments index) fun _ => True := by
  unfold integerArgument?
  split
  · rw [map_eq_pure_bind]
    exact Upholds.bind_any (integerOr_upholds _ _) fun _ => Upholds.pure trivial
  · exact Upholds.pure trivial

/-- What a copy upholds, the builtin that makes it does; errors change their names only. -/
theorem copyValues_upholds {promised : Value → Prop} {source destination : Value}
    {start count position : Int}
    (copied : Upholds invariant (Copy.copy source start count destination position false) promised) :
    Upholds invariant (copyValues source destination start count position) promised := by
  intro machine holds
  have kept := copied machine holds
  unfold copyValues
  rcases ran : Copy.copy source start count destination position false machine with
    ⟨result, reached⟩
  rw [ran] at kept
  refine ⟨kept.1, ?_⟩
  intro value answered
  cases result with
  | error error => cases answered
  | ok result =>
      cases answered
      exact kept.2 value rfl

theorem bounded_upholds (codes : BoundCodes) (default : Int) (arguments : List Value) (index : Nat) :
    Upholds invariant (bounded codes default arguments index) fun _ => True := by
  unfold bounded
  split
  · exact Upholds.pure trivial
  · apply Upholds.bind_any (integerOr_upholds _ _)
    intro integer
    exact Upholds.ite (Upholds.throw _) (Upholds.ite (Upholds.throw _)
      (Upholds.ite (Upholds.throw _) (Upholds.pure trivial)))

theorem blockSettings_upholds (arguments : List Value) :
    Upholds invariant (blockSettings arguments) fun _ => True :=
  Upholds.bind_any (bounded_upholds _ _ _ _) fun _ =>
    Upholds.bind_any (bounded_upholds _ _ _ _) fun _ => Upholds.pure trivial

section Files

variable (aside : ∀ machine files, invariant machine → invariant { machine with files })

include aside

theorem onFiles_upholds {α : Type} (fault : FileError → ErrorCode) (operation : FileM α) :
    Upholds invariant (onFiles fault operation) fun _ => True :=
  fun machine holds => ⟨aside machine _ holds, fun _ _ => trivial⟩

theorem onFiles_return_upholds {α : Type} {fault : FileError → ErrorCode} {operation : FileM α}
    {result : α → Value} (bare : ∀ answer, (result answer).Bare) :
    Upholds invariant (onFiles fault operation >>= fun answer => pure (result answer))
      Value.Bare :=
  Upholds.bind_any (onFiles_upholds aside _ _) fun answer => Upholds.pure (bare answer)

omit aside in
theorem textOrNull_bare (text : Option Bytes) : (textOrNull text).Bare := by
  cases text <;> rfl

omit aside in
theorem positionOrNull_bare (position : Option Int) : (positionOrNull position).Bare := by
  cases position <;> rfl

variable (arguments : List Value)

theorem fopen_upholds : Upholds invariant (fopen arguments) Value.Bare := by
  apply Upholds.bind_any (textOr_upholds _ _)
  intro name
  apply Upholds.bind_any (modeArgument_upholds _ _ _)
  intro mode
  exact onFiles_return_upholds aside fun _ => rfl

theorem fpathopen_upholds : Upholds invariant (fpathopen arguments) Value.Bare := by
  apply Upholds.bind_any (textOr_upholds _ _)
  intro name
  apply Upholds.bind_any (modeArgument_upholds _ _ _)
  intro mode
  dsimp only
  split
  · rw [map_eq_pure_bind, bind_assoc]
    apply Upholds.bind_any (textOr_upholds _ _)
    intro path
    rw [pure_bind]
    exact onFiles_return_upholds aside fun _ => rfl
  · apply Upholds.get_bind
    intro machine _
    rw [pure_bind]
    exact onFiles_return_upholds aside fun _ => rfl

theorem freopen_upholds : Upholds invariant (freopen arguments) Value.Bare := by
  apply Upholds.bind_any (fileOr_upholds _ _)
  intro id
  apply Upholds.bind_any (textOr_upholds _ _)
  intro mode
  dsimp only
  split
  · rw [map_eq_pure_bind, bind_assoc]
    apply Upholds.bind_any (textOr_upholds _ _)
    intro name
    exact onFiles_return_upholds aside fun _ => rfl
  · exact onFiles_return_upholds aside fun _ => rfl

theorem fclose_upholds : Upholds invariant (fclose arguments) Value.Bare := by
  unfold fclose
  split
  · exact onFiles_return_upholds aside fun _ => rfl
  · apply Upholds.bind_any (Upholds.mapM (fileOr_upholds _) _)
    intro ids
    exact Upholds.bind_any (Upholds.forM (fun _ => onFiles_upholds aside _ _) ids) fun _ =>
      Upholds.pure rfl

/-- An operation on each of the files given, or on all files. -/
theorem eachFile_upholds {all : FileM Unit} {fault own : FileError → ErrorCode} {code : ErrorCode}
    {each : FileId → FileM Unit} :
    Upholds invariant (do
      if arguments.isEmpty then
        onFiles fault all
        return Value.null
      arguments.forM fun value => do
        let id ← fileOr code value
        onFiles own (each id)
      return Value.null) Value.Bare := by
  split
  · exact onFiles_return_upholds aside fun _ => rfl
  · refine Upholds.bind_any (Upholds.forM ?_ arguments) fun _ =>
      Upholds.pure rfl
    intro value
    exact Upholds.bind_any (fileOr_upholds _ _) fun _ => onFiles_upholds aside _ _

theorem fflush_upholds : Upholds invariant (fflush arguments) Value.Bare :=
  eachFile_upholds aside arguments

theorem rewind_upholds : Upholds invariant (rewind arguments) Value.Bare :=
  eachFile_upholds aside arguments

theorem fputc_upholds : Upholds invariant (fputc arguments) Value.Bare := by
  apply Upholds.bind_any (fileOr_upholds _ _)
  intro id
  apply Upholds.bind_any (textOr_upholds _ _)
  intro text
  exact onFiles_return_upholds aside fun _ => rfl

theorem putTexts_upholds (fileCode textCode writeCode : ErrorCode)
    (put : FileId → Bytes → FileM Unit) :
    Upholds invariant (putTexts fileCode textCode writeCode put arguments) Value.Bare := by
  apply Upholds.bind_any (fileOr_upholds _ _)
  intro id
  apply Upholds.bind_any (Upholds.mapM (textOr_upholds _) _)
  intro texts
  exact Upholds.bind_any (Upholds.forM (fun _ => onFiles_upholds aside _ _) texts) fun _ =>
    Upholds.pure rfl

theorem fgetc_upholds : Upholds invariant (fgetc arguments) Value.Bare := by
  apply Upholds.bind_any (fileOr_upholds _ _)
  intro id
  exact onFiles_return_upholds aside fun _ => textOrNull_bare _

theorem getText_upholds (fileCode : ErrorCode) (fault : FileError → ErrorCode)
    (options : ReadOptions) :
    Upholds invariant (getText fileCode fault options arguments) Value.Bare := by
  apply Upholds.bind_any (fileOr_upholds _ _)
  intro id
  exact onFiles_return_upholds aside textOrNull_bare

theorem ungetc_upholds : Upholds invariant (ungetc arguments) Value.Bare := by
  apply Upholds.bind_any (fileOr_upholds _ _)
  intro id
  apply Upholds.bind_any (textOr_upholds _ _)
  intro text
  cases text with
  | nil => exact Upholds.throw _
  | cons byte _ => exact onFiles_return_upholds aside fun _ => rfl

/-- A builtin that asks one thing about one file. -/
theorem askFile_upholds {α : Type} {code : ErrorCode} {fault : FileError → ErrorCode}
    {ask : FileId → FileM α} {result : α → Value}
    (bare : ∀ answer, (result answer).Bare) :
    Upholds invariant (do
      let id ← fileOr code (argument arguments 0)
      return result (← onFiles fault (ask id))) Value.Bare :=
  Upholds.bind_any (fileOr_upholds _ _) fun _ => onFiles_return_upholds aside bare

theorem fseek_upholds : Upholds invariant (fseek arguments) Value.Bare := by
  apply Upholds.bind_any (fileOr_upholds _ _)
  intro id
  apply Upholds.bind_any (integerOr_upholds _ _)
  intro offset
  dsimp only
  split
  · apply Upholds.bind_any (wordOr_upholds _ _)
    intro whence
    exact onFiles_return_upholds aside fun _ => rfl
  · exact onFiles_return_upholds aside fun _ => rfl

theorem isatty_upholds : Upholds invariant (isatty arguments) Value.Bare := by
  unfold isatty
  split
  · exact onFiles_return_upholds aside fun _ => rfl
  · exact Upholds.pure rfl

omit aside in
theorem files_upholds : Upholds invariant (files arguments) Value.Bare := by
  apply Upholds.get_bind
  intro machine _
  dsimp only
  split
  · exact Upholds.pure rfl
  · apply Upholds.bind_any (wordOr_upholds _ _)
    intro index
    split
    · exact Upholds.pure rfl
    · split <;> exact Upholds.pure rfl

theorem window_upholds (codes : SearchCodes) :
    Upholds invariant (window codes arguments) fun _ => True := by
  apply Upholds.bind_any (fileOr_upholds _ _)
  intro id
  apply Upholds.bind_any (textOr_upholds _ _)
  intro needle
  apply Upholds.bind_any (integerArgument_upholds _ _ _)
  intro start
  apply Upholds.bind_any (integerArgument_upholds _ _ _)
  intro finish
  apply Upholds.bind_any (onFiles_upholds aside _ _)
  intro size
  dsimp only
  split
  · apply Upholds.bind_any (onFiles_upholds aside _ _)
    intro position
    split <;> exact Upholds.pure trivial
  · exact Upholds.pure trivial

theorem search_upholds : Upholds invariant (search arguments) Value.Bare := by
  apply Upholds.bind_any (window_upholds aside _ _)
  intro window
  dsimp only
  split
  · exact Upholds.pure rfl
  · exact onFiles_return_upholds aside positionOrNull_bare

theorem rsearch_upholds : Upholds invariant (rsearch arguments) Value.Bare := by
  apply Upholds.bind_any (window_upholds aside _ _)
  intro window
  exact Upholds.ite (Upholds.pure rfl)
    (onFiles_return_upholds aside positionOrNull_bare)

end Files

theorem counted_run {name : String} {least most : Nat} {body : List Value → BuiltinM Value}
    {arguments : List Value} (enough : least ≤ arguments.length) (few : arguments.length ≤ most) :
    counted name least most body arguments = settle (body arguments) := by
  have fits : ¬(arguments.length < least || most < arguments.length) = true := by
    simp only [Bool.or_eq_true, decide_eq_true_eq]
    omega
  rw [counted, if_neg fits]

theorem settle_turns {first last : Machine → Prop} {promised : Value → Prop} {body : BuiltinM Value}
    (turned : Turns first last body promised) (bare : ∀ value, value.Bare → promised value) :
    Turns first last (settle body) promised := by
  intro machine holds
  obtain ⟨reached, kept⟩ := turned machine holds
  unfold settle
  rcases ran : body machine with ⟨answer, after⟩
  rw [ran] at reached kept
  cases answer with
  | ok value =>
      refine ⟨reached, ?_⟩
      intro result same
      cases same
      exact kept value rfl
  | error code =>
      refine ⟨reached, ?_⟩
      intro result same
      cases same
      exact bare _ rfl

end Builtin

theorem mem_of_lookup {α : Type} {key : String} {result : α} {entries : List (String × α)}
    (found : entries.lookup key = some result) : (key, result) ∈ entries := by
  obtain ⟨front, back, same, _⟩ := List.lookup_eq_some_iff.mp found
  rw [same]
  exact List.mem_append_right _ List.mem_cons_self

namespace Registry

open Effect (Turns Upholds)

theorem mem_put {name : String} {implementation : Implementation}
    {entries : List (String × Implementation)} {entry : String × Implementation}
    (member : entry ∈ put name implementation entries) :
    entry = (name, implementation) ∨ entry ∈ entries := by
  induction entries with
  | nil => exact .inl (List.mem_singleton.mp member)
  | cons head rest ih =>
      rw [put] at member
      split at member
      · rcases List.mem_cons.mp member with own | later
        · exact .inl own
        · exact .inr (List.mem_cons_of_mem _ later)
      · rcases List.mem_cons.mp member with rfl | later
        · exact .inr List.mem_cons_self
        · exact (ih later).imp_right (List.mem_cons_of_mem _)

theorem mem_foldl_register {list : List (String × Implementation)} {registry : Registry}
    {entry : String × Implementation}
    (member : entry ∈ (list.foldl (fun registry entry => registry.register entry.1 entry.2)
      registry).entries) : entry ∈ list ∨ entry ∈ registry.entries := by
  induction list generalizing registry with
  | nil => exact .inr member
  | cons head rest ih =>
      rcases ih member with later | present
      · exact .inl (List.mem_cons_of_mem _ later)
      · rcases mem_put present with rfl | old
        · exact .inl List.mem_cons_self
        · exact .inr old

theorem forall_ofList {list : List (String × Implementation)} {obeys : String × Implementation → Prop}
    (all : ∀ entry ∈ list, obeys entry) : ∀ entry ∈ (ofList list).entries, obeys entry := by
  intro entry member
  exact all entry ((mem_foldl_register member).resolve_right List.not_mem_nil)

section Dispatch

variable {first last : Machine → Prop} {promised : Value → Prop} {arguments : List Value}
  (weaker : ∀ machine, first machine → last machine) (bare : ∀ value, value.Bare → promised value)

include weaker bare

theorem counted_turns {name : String} {least most : Nat} {body : List Value → BuiltinM Value}
    (turned : Turns first last (body arguments) promised) :
    Turns first last ((counted name least most body).2 arguments) promised :=
  Turns.ite (Turns.throw_bind weaker _ _) (Builtin.settle_turns turned bare)

theorem countedFrom_turns {name : String} {least : Nat} {body : List Value → BuiltinM Value}
    (turned : Turns first last (body arguments) promised) :
    Turns first last ((countedFrom name least body).2 arguments) promised :=
  Turns.ite (Turns.throw_bind weaker _ _) (Builtin.settle_turns turned bare)

open Builtin in
/-- What is asked of a call of any builtin is to be shown for the block builtins only, if it does not
depend on files and bare values have it. -/
theorem standard_call_turns
    (aside : ∀ machine files, first machine → first { machine with files })
    (name : String) (allocated : name = "blk" → Turns first last (blk arguments) promised)
    (freed : Turns first last (blkfree arguments) promised)
    (counted : Turns first last (blocks arguments) promised)
    (copied : Turns first last (copy arguments) promised)
    (moved : Turns first last (blkcpy arguments) promised) :
    Turns first last (standard.call name arguments) promised := by
  have block {name : String} {least most : Nat} {body : List Value → BuiltinM Value}
      (turned : Turns first last (body arguments) promised) :
      Turns first last ((Registry.counted name least most body).2 arguments) promised :=
    counted_turns weaker bare turned
  have file {name : String} {least most : Nat} {body : List Value → BuiltinM Value}
      (upheld : Upholds first (body arguments) Value.Bare) :
      Turns first last ((Registry.counted name least most body).2 arguments) promised :=
    block (upheld.turns weaker bare)
  have many {name : String} {least : Nat} {body : List Value → BuiltinM Value}
      (upheld : Upholds first (body arguments) Value.Bare) :
      Turns first last ((countedFrom name least body).2 arguments) promised :=
    countedFrom_turns weaker bare (upheld.turns weaker bare)
  have texts {fileCode : ErrorCode} {fault : FileError → ErrorCode} {options : ReadOptions} :
      Upholds first (getText fileCode fault options arguments) Value.Bare :=
    getText_upholds aside arguments fileCode fault options
  have all : ∀ entry ∈ standard.entries, entry.1 = name →
      Turns first last (entry.2 arguments) promised := by
    apply forall_ofList
    simp only [List.forall_mem_cons]
    exact
      ⟨fun _ => file (fopen_upholds aside _), fun _ => file (fpathopen_upholds aside _),
        fun _ => file (freopen_upholds aside _), fun _ => many (fclose_upholds aside _),
        fun _ => many (fflush_upholds aside _), fun _ => file (fputc_upholds aside _),
        fun _ => many (putTexts_upholds aside _ _ _ _ _),
        fun _ => many (putTexts_upholds aside _ _ _ _ _), fun _ => file (fgetc_upholds aside _),
        fun _ => file texts, fun _ => file texts, fun _ => file texts, fun _ => file texts,
        fun _ => file texts, fun _ => file (ungetc_upholds aside _),
        fun _ => file (askFile_upholds aside _ fun _ => rfl), fun _ => file (fseek_upholds aside _),
        fun _ => file (askFile_upholds aside _ fun _ => rfl),
        fun _ => file (askFile_upholds aside _ fun _ => rfl),
        fun _ => file (askFile_upholds aside _ fun _ => rfl), fun _ => file (isatty_upholds aside _),
        fun _ => many (rewind_upholds aside _), fun _ => file (files_upholds _),
        fun _ => file (search_upholds aside _), fun _ => file (rsearch_upholds aside _),
        fun own => block (allocated own.symm), fun _ => block freed, fun _ => block counted,
        fun _ => block copied, fun _ => block moved, List.forall_mem_nil _⟩
  unfold call
  split
  · rename_i implementation found
    exact all (name, implementation) (mem_of_lookup found) rfl
  · exact Turns.throw weaker _

end Dispatch

end Registry

end Calculator
