/-!
# Programs with state and errors

Transfers, file operations and copies are all programs that change a state and may fail; a failure keeps
the state it was met in. Running one step by step needs only what the first step answers.
-/

namespace Calculator.Effect

variable {ε σ α β : Type}

theorem bind_ok {program : ExceptT ε (StateM σ) α} {next : α → ExceptT ε (StateM σ) β}
    {before after : σ} {result : α} (first : program before = (.ok result, after)) :
    (program >>= next) before = next result after := by
  simp only [bind, ExceptT.bind, ExceptT.mk, StateT.bind, first]
  rfl

theorem bind_error {program : ExceptT ε (StateM σ) α} {next : α → ExceptT ε (StateM σ) β}
    {before after : σ} {error : ε} (first : program before = (.error error, after)) :
    (program >>= next) before = (.error error, after) := by
  simp only [bind, ExceptT.bind, ExceptT.mk, StateT.bind, first]
  rfl

theorem run_of_answer {program : ExceptT ε (StateM σ) α} {state : σ} {answer : Except ε α}
    (answered : (program state).1 = answer) : program state = (answer, (program state).2) :=
  Prod.ext answered rfl

/-- A program that succeeds does so through the success of its first step. -/
theorem steps_of_ok {program : ExceptT ε (StateM σ) α} {next : α → ExceptT ε (StateM σ) β}
    {before after : σ} {final : β} (ran : (program >>= next) before = (.ok final, after)) :
    ∃ result between, program before = (.ok result, between)
      ∧ next result between = (.ok final, after) := by
  rcases first : program before with ⟨answer, between⟩
  cases answer with
  | ok result =>
      rw [bind_ok first] at ran
      exact ⟨result, between, rfl, ran⟩
  | error error =>
      rw [bind_error first] at ran
      cases ran

theorem bind_congr_run {program : ExceptT ε (StateM σ) α} {next : α → ExceptT ε (StateM σ) β}
    {before other : σ} (same : program before = program other) :
    (program >>= next) before = (program >>= next) other := by
  simp only [bind, ExceptT.bind, ExceptT.mk, StateT.bind, same]

theorem tryCatch_ok {program : ExceptT ε (StateM σ) α} {handler : ε → ExceptT ε (StateM σ) α}
    {before after : σ} {result : α} (first : program before = (.ok result, after)) :
    tryCatch program handler before = (.ok result, after) := by
  simp only [tryCatch, tryCatchThe, MonadExceptOf.tryCatch, ExceptT.tryCatch, ExceptT.mk, bind,
    StateT.bind, first]
  rfl

theorem tryCatch_error {program : ExceptT ε (StateM σ) α} {handler : ε → ExceptT ε (StateM σ) α}
    {before after : σ} {error : ε} (first : program before = (.error error, after)) :
    tryCatch program handler before = handler error after := by
  simp only [tryCatch, tryCatchThe, MonadExceptOf.tryCatch, ExceptT.tryCatch, ExceptT.mk, bind,
    StateT.bind, first]

theorem bind_state (program : ExceptT ε (StateM σ) α) {next : α → ExceptT ε (StateM σ) β}
    (keeps : ∀ result state, (next result state).2 = state) (state : σ) :
    ((program >>= next) state).2 = (program state).2 := by
  rcases ran : program state with ⟨result, after⟩
  cases result with
  | ok result =>
      rw [bind_ok ran]
      exact keeps result after
  | error error => rw [bind_error ran]

@[simp]
theorem pure_run (result : α) (state : σ) :
    (pure result : ExceptT ε (StateM σ) α) state = (.ok result, state) := rfl

@[simp]
theorem get_bind_run (next : σ → ExceptT ε (StateM σ) α) (state : σ) :
    ((get : ExceptT ε (StateM σ) σ) >>= next) state = next state state := rfl

@[simp]
theorem lift_ok_bind_run (result : α) (next : α → ExceptT ε (StateM σ) β) (state : σ) :
    ((liftM (Except.ok result : Except ε α) : ExceptT ε (StateM σ) α) >>= next) state
      = next result state := rfl

/-- Answers that agree in some respect are both failures, and the same one, or both results. -/
theorem map_eq_map {γ : Type} {respect : α → γ} {first second : Except ε α}
    (agree : first.map respect = second.map respect) :
    (∃ error, first = .error error ∧ second = .error error)
      ∨ ∃ result other, first = .ok result ∧ second = .ok other ∧ respect result = respect other := by
  cases first with
  | error error =>
      cases second with
      | error other =>
          cases agree
          exact .inl ⟨error, rfl, rfl⟩
      | ok result => cases agree
  | ok result =>
      cases second with
      | error error => cases agree
      | ok other => exact .inr ⟨result, other, rfl, rfl, Except.ok.inj agree⟩

def Always (kept : σ → σ → Prop) (program : ExceptT ε (StateM σ) α) : Prop :=
  ∀ before, kept before (program before).2

section Always

variable {kept : σ → σ → Prop} (refl : ∀ state, kept state state)
  (trans : ∀ first second third, kept first second → kept second third → kept first third)

include refl in
theorem Always.pure (result : α) : Always kept (Pure.pure result : ExceptT ε (StateM σ) α) :=
  refl

include refl in
theorem Always.throw (error : ε) : Always kept (MonadExcept.throw error : ExceptT ε (StateM σ) α) :=
  refl

include refl in
theorem Always.lift (answer : Except ε α) :
    Always kept (liftM answer : ExceptT ε (StateM σ) α) := by
  intro before
  cases answer <;> exact refl before

theorem Always.get_bind {next : σ → ExceptT ε (StateM σ) α}
    (continued : ∀ state, Always kept (next state)) :
    Always kept ((get : ExceptT ε (StateM σ) σ) >>= next) :=
  fun before => continued before before

include trans in
theorem Always.bind {program : ExceptT ε (StateM σ) α} {next : α → ExceptT ε (StateM σ) β}
    (first : Always kept program) (continued : ∀ result, Always kept (next result)) :
    Always kept (program >>= next) := by
  intro before
  have stepped := first before
  rcases ran : program before with ⟨result, between⟩
  rw [ran] at stepped
  cases result with
  | ok result =>
      rw [bind_ok ran]
      exact trans _ _ _ stepped (continued result between)
  | error error =>
      rw [bind_error ran]
      exact stepped

include trans in
theorem Always.tryCatch {program : ExceptT ε (StateM σ) α} {handler : ε → ExceptT ε (StateM σ) α}
    (first : Always kept program) (handled : ∀ error, Always kept (handler error)) :
    Always kept (MonadExcept.tryCatch program handler) := by
  intro before
  have stepped := first before
  rcases ran : program before with ⟨result, between⟩
  rw [ran] at stepped
  cases result with
  | ok result =>
      rw [tryCatch_ok ran]
      exact stepped
  | error error =>
      rw [tryCatch_error ran]
      exact trans _ _ _ stepped (handled error between)

end Always

/-- The program keeps what holds of the state, whatever it answers, and a result is one that was
promised. -/
def Upholds (invariant : σ → Prop) (program : ExceptT ε (StateM σ) α) (promised : α → Prop) : Prop :=
  ∀ before, invariant before → invariant (program before).2
    ∧ ∀ result, (program before).1 = .ok result → promised result

section Upholds

variable {invariant : σ → Prop} {promised : α → Prop}

theorem Upholds.pure {result : α} (holds : promised result) :
    Upholds invariant (Pure.pure result : ExceptT ε (StateM σ) α) promised := by
  intro before kept
  refine ⟨kept, ?_⟩
  intro answer same
  cases same
  exact holds

theorem Upholds.throw (error : ε) :
    Upholds invariant (MonadExcept.throw error : ExceptT ε (StateM σ) α) promised := by
  intro before kept
  refine ⟨kept, ?_⟩
  intro answer same
  cases same

theorem Upholds.throw_bind (error : ε) (next : β → ExceptT ε (StateM σ) α) :
    Upholds invariant ((MonadExcept.throw error : ExceptT ε (StateM σ) β) >>= next) promised :=
  Upholds.throw error

theorem Upholds.lift {answer : Except ε α} (holds : ∀ result, answer = .ok result → promised result) :
    Upholds invariant (liftM answer : ExceptT ε (StateM σ) α) promised := by
  cases answer with
  | ok result => exact Upholds.pure (holds result rfl)
  | error error => exact Upholds.throw error

theorem Upholds.set {state : σ} (kept : invariant state) :
    Upholds invariant (MonadStateOf.set state : ExceptT ε (StateM σ) PUnit) fun _ => True :=
  fun _ _ => ⟨kept, fun _ _ => trivial⟩

theorem Upholds.get_bind {next : σ → ExceptT ε (StateM σ) α}
    (continued : ∀ state, invariant state → Upholds invariant (next state) promised) :
    Upholds invariant ((get : ExceptT ε (StateM σ) σ) >>= next) promised :=
  fun before kept => continued before kept before kept

theorem Upholds.bind {program : ExceptT ε (StateM σ) α} {next : α → ExceptT ε (StateM σ) β}
    {wanted : β → Prop} (first : Upholds invariant program promised)
    (continued : ∀ result, promised result → Upholds invariant (next result) wanted) :
    Upholds invariant (program >>= next) wanted := by
  intro before kept
  obtain ⟨stepped, holds⟩ := first before kept
  rcases ran : program before with ⟨answer, between⟩
  rw [ran] at stepped holds
  cases answer with
  | ok result =>
      rw [bind_ok ran]
      exact continued result (holds result rfl) between stepped
  | error error =>
      rw [bind_error ran]
      exact Upholds.throw error between stepped

theorem Upholds.bind_any {program : ExceptT ε (StateM σ) α} {next : α → ExceptT ε (StateM σ) β}
    {wanted : β → Prop} (first : Upholds invariant program fun _ => True)
    (continued : ∀ result, Upholds invariant (next result) wanted) :
    Upholds invariant (program >>= next) wanted :=
  Upholds.bind first fun result _ => continued result

theorem Upholds.tryCatch {program : ExceptT ε (StateM σ) α} {handler : ε → ExceptT ε (StateM σ) α}
    (first : Upholds invariant program promised)
    (handled : ∀ error, Upholds invariant (handler error) promised) :
    Upholds invariant (MonadExcept.tryCatch program handler) promised := by
  intro before kept
  have stepped := first before kept
  rcases ran : program before with ⟨answer, between⟩
  rw [ran] at stepped
  cases answer with
  | ok result =>
      rw [tryCatch_ok ran]
      exact stepped
  | error error =>
      rw [tryCatch_error ran]
      exact handled error between stepped.1

theorem Upholds.lift_bind {answer : Except ε α} {next : α → ExceptT ε (StateM σ) β}
    {wanted : β → Prop}
    (continued : ∀ result, answer = .ok result → Upholds invariant (next result) wanted) :
    Upholds invariant (liftM answer >>= next) wanted :=
  Upholds.bind (Upholds.lift fun _ made => made) continued

end Upholds

/-- From a state of the first kind the program ends in one of the last kind, whatever it answers, and a
result is one that was promised. -/
def Turns (first last : σ → Prop) (program : ExceptT ε (StateM σ) α) (promised : α → Prop) : Prop :=
  ∀ before, first before → last (program before).2
    ∧ ∀ result, (program before).1 = .ok result → promised result

section Turns

variable {first last : σ → Prop} {promised : α → Prop}

theorem Upholds.turns {program : ExceptT ε (StateM σ) α} {held : α → Prop}
    (upheld : Upholds first program held) (weaker : ∀ state, first state → last state)
    (implied : ∀ result, held result → promised result) : Turns first last program promised := by
  intro before holds
  obtain ⟨kept, answered⟩ := upheld before holds
  exact ⟨weaker _ kept, fun result same => implied result (answered result same)⟩

theorem Turns.pure (weaker : ∀ state, first state → last state) {result : α}
    (holds : promised result) :
    Turns first last (Pure.pure result : ExceptT ε (StateM σ) α) promised :=
  (Upholds.pure holds).turns weaker fun _ given => given

theorem Turns.throw (weaker : ∀ state, first state → last state) (error : ε) :
    Turns first last (MonadExcept.throw error : ExceptT ε (StateM σ) α) promised :=
  (Upholds.throw error).turns weaker fun _ given => given

theorem Turns.throw_bind (weaker : ∀ state, first state → last state) (error : ε)
    (next : β → ExceptT ε (StateM σ) α) :
    Turns first last ((MonadExcept.throw error : ExceptT ε (StateM σ) β) >>= next) promised :=
  Turns.throw weaker error

theorem Turns.ite {condition : Prop} [Decidable condition] {one other : ExceptT ε (StateM σ) α}
    (left : Turns first last one promised) (right : Turns first last other promised) :
    Turns first last (if condition then one else other) promised := by
  split
  · exact left
  · exact right

theorem Turns.get_bind {next : σ → ExceptT ε (StateM σ) α}
    (continued : ∀ state, Turns first last (next state) promised) :
    Turns first last ((get : ExceptT ε (StateM σ) σ) >>= next) promised :=
  fun before holds => continued before before holds

/-- Steps that keep to the first kind of states may come before the one that leaves them. -/
theorem Turns.bind {program : ExceptT ε (StateM σ) β} {next : β → ExceptT ε (StateM σ) α}
    {held : β → Prop} (upheld : Upholds first program held)
    (weaker : ∀ state, first state → last state)
    (continued : ∀ result, held result → Turns first last (next result) promised) :
    Turns first last (program >>= next) promised := by
  intro before holds
  obtain ⟨kept, answered⟩ := upheld before holds
  rcases ran : program before with ⟨answer, between⟩
  rw [ran] at kept answered
  cases answer with
  | ok result =>
      rw [bind_ok ran]
      exact continued result (answered result rfl) between kept
  | error error =>
      rw [bind_error ran]
      exact Turns.throw weaker error between kept

theorem Turns.bind_pure {program : ExceptT ε (StateM σ) β} {held : β → Prop} {shape : β → α}
    (turned : Turns first last program held) (implied : ∀ result, held result → promised (shape result)) :
    Turns first last (program >>= fun result => Pure.pure (shape result)) promised := by
  intro before holds
  obtain ⟨reached, answered⟩ := turned before holds
  rcases ran : program before with ⟨answer, after⟩
  rw [ran] at reached answered
  cases answer with
  | ok result =>
      rw [bind_ok ran]
      refine ⟨reached, ?_⟩
      intro given same
      cases same
      exact implied result (answered result rfl)
  | error error =>
      rw [bind_error ran]
      refine ⟨reached, ?_⟩
      intro given same
      cases same

end Turns

/-- From a state of the first kind the program ends in a safe one, whatever it answers, and a success
ends in one that its result was promised to reach. -/
def Ensures (first safe : σ → Prop) (program : ExceptT ε (StateM σ) α) (reached : α → σ → Prop) : Prop :=
  ∀ before, first before → safe (program before).2
    ∧ ∀ result, (program before).1 = .ok result → reached result (program before).2

section Ensures

variable {first safe : σ → Prop} {reached : α → σ → Prop}

theorem Ensures.pure {result : α} (harmless : ∀ state, first state → safe state)
    (holds : ∀ state, first state → reached result state) :
    Ensures first safe (Pure.pure result : ExceptT ε (StateM σ) α) reached := by
  intro before begun
  refine ⟨harmless before begun, ?_⟩
  intro answer same
  cases same
  exact holds before begun

theorem Ensures.throw (harmless : ∀ state, first state → safe state) (error : ε) :
    Ensures first safe (MonadExcept.throw error : ExceptT ε (StateM σ) α) reached := by
  intro before begun
  refine ⟨harmless before begun, ?_⟩
  intro answer same
  cases same

theorem Ensures.get_bind {next : σ → ExceptT ε (StateM σ) α}
    (continued : ∀ state, first state → Ensures (fun other => other = state) safe (next state) reached) :
    Ensures first safe ((get : ExceptT ε (StateM σ) σ) >>= next) reached :=
  fun before begun => continued before begun before rfl

theorem Ensures.bind {program : ExceptT ε (StateM σ) α} {next : α → ExceptT ε (StateM σ) β}
    {last : β → σ → Prop} (begun : Ensures first safe program reached)
    (continued : ∀ result, Ensures (reached result) safe (next result) last) :
    Ensures first safe (program >>= next) last := by
  intro before holds
  obtain ⟨stepped, answered⟩ := begun before holds
  rcases ran : program before with ⟨answer, between⟩
  rw [ran] at stepped answered
  cases answer with
  | ok result =>
      rw [bind_ok ran]
      exact continued result between (answered result rfl)
  | error error =>
      rw [bind_error ran]
      refine ⟨stepped, ?_⟩
      intro result same
      cases same

theorem Ensures.weaken {program : ExceptT ε (StateM σ) α} {narrow : σ → Prop} {last : α → σ → Prop}
    (ensured : Ensures first safe program reached) (begun : ∀ state, narrow state → first state)
    (implied : ∀ result state, reached result state → last result state) :
    Ensures narrow safe program last := by
  intro before holds
  obtain ⟨stepped, answered⟩ := ensured before (begun before holds)
  exact ⟨stepped, fun result same => implied result _ (answered result same)⟩

end Ensures

end Calculator.Effect
