/-!
Steps that change a state and may fail, keeping what they changed. A step keeps an invariant if
it holds behind the step whenever it held before, whether the step failed or not; it reaches a
value if some draws make it give that value; two steps agree if they have the same outcome from
related states and leave related states behind.
-/

namespace TextGrammar.Effect

variable {ε σ α β : Type}

@[simp] theorem ok_bind (value : α) (next : α → Except ε β) :
    (Except.ok value >>= next) = next value := rfl

@[simp] theorem error_bind (reason : ε) (next : α → Except ε β) :
    (Except.error reason >>= next) = .error reason := rfl

@[simp] theorem pure_eq_ok (value : α) : (pure value : Except ε α) = .ok value := rfl

theorem bind_eq_ok {step : Except ε α} {next : α → Except ε β} {value : β} :
    (step >>= next) = .ok value ↔ ∃ between, step = .ok between ∧ next between = .ok value := by
  cases step with
  | ok between => simp
  | error reason => simp

theorem bind_eq_error {step : Except ε α} {next : α → Except ε β} {reason : ε} :
    (step >>= next) = .error reason ↔
      step = .error reason ∨ ∃ between, step = .ok between ∧ next between = .error reason := by
  cases step with
  | ok between => simp
  | error other => simp

section

variable {δ : Type} (change : ε → δ)

@[simp] theorem mapError_ok (value : α) : (Except.ok value).mapError change = .ok value := rfl

@[simp] theorem mapError_error (reason : ε) :
    (Except.error reason : Except ε α).mapError change = .error (change reason) := rfl

end

theorem mapError_eq_ok_iff {δ : Type} {change : ε → δ} {outcome : Except ε α} {value : α} :
    outcome.mapError change = .ok value ↔ outcome = .ok value := by
  cases outcome <;> simp

/-- The value of an outcome meets one condition, its error another. -/
def Meets (gives : α → Prop) (fails : ε → Prop) : Except ε α → Prop
  | .ok value => gives value
  | .error error => fails error

/-- From every state that meets the invariant, the step ends in one that does, with a value or an
error that meets its condition. -/
def Keeps (invariant : σ → Prop) (gives : α → Prop) (fails : ε → Prop)
    (step : ExceptT ε (StateM σ) α) : Prop :=
  ∀ state, invariant state → invariant (step state).2 ∧ Meets gives fails (step state).1

theorem bind_apply (step : ExceptT ε (StateM σ) α) (next : α → ExceptT ε (StateM σ) β)
    (state : σ) :
    (step >>= next) state = match step state with
      | (.ok value, later) => next value later
      | (.error error, later) => (.error error, later) := by
  show (match step state with
    | (outcome, later) => ExceptT.bindCont next outcome later) = _
  rcases step state with ⟨_ | _, later⟩ <;> rfl

/-- A change of the value behind a step. -/
theorem bind_pure_apply (step : ExceptT ε (StateM σ) α) (change : α → β) (state : σ) :
    (step >>= fun value => pure (change value)) state =
      ((step state).1.map change, (step state).2) := by
  rw [bind_apply]
  rcases step state with ⟨_ | value, later⟩ <;> rfl

/-- Behind a step only a step that never fails: the errors are those of the first. -/
theorem bind_fst_eq_error_iff {step : ExceptT ε (StateM σ) α} {next : α → ExceptT ε (StateM σ) β}
    (total : ∀ value state error, (next value state).1 ≠ .error error) {state : σ} {error : ε} :
    ((step >>= next) state).1 = .error error ↔ (step state).1 = .error error := by
  rw [bind_apply]
  rcases step state with ⟨other | value, later⟩
  · exact ⟨fun same => congrArg _ (Except.error.inj same),
      fun same => congrArg _ (Except.error.inj same)⟩
  · refine ⟨fun failed => (total value later error failed).elim, fun failed => ?_⟩
    cases failed

/-- Both steps give a value. -/
theorem bind_fst_eq_ok_iff {step : ExceptT ε (StateM σ) α} {next : α → ExceptT ε (StateM σ) β}
    {state : σ} {value : β} :
    ((step >>= next) state).1 = .ok value ↔
      ∃ between later, step state = (.ok between, later) ∧ (next between later).1 = .ok value := by
  rw [bind_apply]
  rcases step state with ⟨error | between, later⟩
  · constructor
    · intro given
      cases given
    · rintro ⟨_, _, same, -⟩
      cases same
  · constructor
    · intro given
      exact ⟨between, later, rfl, given⟩
    · rintro ⟨_, _, same, given⟩
      cases same
      exact given

/-- What the second step leaves alone is as the first one left it. -/
theorem bind_leaves {γ : Type} (part : σ → γ) {step : ExceptT ε (StateM σ) α}
    {next : α → ExceptT ε (StateM σ) β}
    (leaves : ∀ value state, part (next value state).2 = part state) (state : σ) :
    part ((step >>= next) state).2 = part (step state).2 := by
  rw [bind_apply]
  rcases step state with ⟨_ | value, later⟩
  · rfl
  · exact leaves value later

variable {invariant : σ → Prop} {gives : α → Prop} {fails : ε → Prop}

theorem keeps_pure {value : α} (meets : gives value) :
    Keeps invariant gives fails (pure value : ExceptT ε (StateM σ) α) :=
  fun _ holds => ⟨holds, meets⟩

theorem keeps_bind {step : ExceptT ε (StateM σ) α} {next : α → ExceptT ε (StateM σ) β}
    {between : α → Prop} {gives : β → Prop} (first : Keeps invariant between fails step)
    (second : ∀ value, between value → Keeps invariant gives fails (next value)) :
    Keeps invariant gives fails (step >>= next) := by
  intro state holds
  obtain ⟨kept, meets⟩ := first state holds
  rw [bind_apply]
  rcases found : step state with ⟨_ | value, later⟩
  · rw [found] at kept meets
    exact ⟨kept, meets⟩
  · rw [found] at kept meets
    exact second value meets later kept

theorem Keeps.mono {step : ExceptT ε (StateM σ) α} {gives' : α → Prop} {fails' : ε → Prop}
    (keeps : Keeps invariant gives fails step) (value : ∀ value, gives value → gives' value)
    (error : ∀ error, fails error → fails' error) : Keeps invariant gives' fails' step := by
  intro state holds
  obtain ⟨kept, meets⟩ := keeps state holds
  refine ⟨kept, ?_⟩
  cases outcome : (step state).1 with
  | ok result =>
    rw [outcome] at meets
    exact value result meets
  | error reason =>
    rw [outcome] at meets
    exact error reason meets

theorem Keeps.imp {step : ExceptT ε (StateM σ) α} {gives' : α → Prop}
    (keeps : Keeps invariant gives fails step) (value : ∀ value, gives value → gives' value) :
    Keeps invariant gives' fails step :=
  keeps.mono value fun _ failed => failed

/-- A step that keeps the invariant and has no error to end in gives a value. -/
theorem Keeps.exists_ok {step : ExceptT ε (StateM σ) α}
    (keeps : Keeps invariant gives (fun _ => False) step) (state : σ) (holds : invariant state) :
    ∃ value later, step state = (.ok value, later) ∧ invariant later ∧ gives value := by
  obtain ⟨kept, meets⟩ := keeps state holds
  rcases found : step state with ⟨error | value, later⟩
  · rw [found] at meets
    exact meets.elim
  · rw [found] at kept meets
    exact ⟨value, later, rfl, kept, meets⟩

/-! ### Reaching a value -/

/-- From every state that meets the invariant and has certain draws ahead, the step gives the
value, with these draws used up and those behind them untouched. -/
def Reaches {δ : Type} (invariant : σ → Prop) (ahead : σ → List δ)
    (step : ExceptT ε (StateM σ) α) (value : α) : Prop :=
  ∃ draws, ∀ state later, invariant state → ahead state = draws ++ later →
    ∃ behind, step state = (.ok value, behind) ∧ invariant behind ∧ ahead behind = later

variable {δ : Type} {ahead : σ → List δ}

theorem reaches_pure (value : α) :
    Reaches invariant ahead (pure value : ExceptT ε (StateM σ) α) value :=
  ⟨[], fun state _ holds same => ⟨state, rfl, holds, same⟩⟩

theorem reaches_bind {step : ExceptT ε (StateM σ) α} {next : α → ExceptT ε (StateM σ) β}
    {between : α} {value : β} (first : Reaches invariant ahead step between)
    (second : Reaches invariant ahead (next between) value) :
    Reaches invariant ahead (step >>= next) value := by
  obtain ⟨draws, first⟩ := first
  obtain ⟨more, second⟩ := second
  refine ⟨draws ++ more, fun state later holds same => ?_⟩
  rw [List.append_assoc] at same
  obtain ⟨middle, stepped, kept, left⟩ := first state (more ++ later) holds same
  rw [bind_apply, stepped]
  exact second middle later kept left

/-! ### Two runs -/

variable {σ' : Type} {related : σ → σ' → Prop}

/-- From related states, the steps have the same outcome and end in related states. -/
def Agree (related : σ → σ' → Prop) (step : ExceptT ε (StateM σ) α)
    (step' : ExceptT ε (StateM σ') α) : Prop :=
  ∀ state state', related state state' →
    (step state).1 = (step' state').1 ∧ related (step state).2 (step' state').2

theorem agree_pure (value : α) : Agree related (pure value : ExceptT ε (StateM σ) α)
    (pure value : ExceptT ε (StateM σ') α) :=
  fun _ _ holds => ⟨rfl, holds⟩

theorem agree_throw (error : ε) : Agree related (throw error : ExceptT ε (StateM σ) α)
    (throw error : ExceptT ε (StateM σ') α) :=
  fun _ _ holds => ⟨rfl, holds⟩

variable {step : ExceptT ε (StateM σ) α} {step' : ExceptT ε (StateM σ') α}
  {next : α → ExceptT ε (StateM σ) β} {next' : α → ExceptT ε (StateM σ') β}

/-- If steps agree from two states, and those that follow agree behind them, both together do. -/
theorem agree_behind {state : σ} {state' : σ'}
    (first : (step state).1 = (step' state').1 ∧ related (step state).2 (step' state').2)
    (second : ∀ value later later', step state = (.ok value, later) → related later later' →
      (next value later).1 = (next' value later').1 ∧
        related (next value later).2 (next' value later').2) :
    ((step >>= next) state).1 = ((step' >>= next') state').1 ∧
      related ((step >>= next) state).2 ((step' >>= next') state').2 := by
  obtain ⟨same, kept⟩ := first
  rw [bind_apply, bind_apply]
  rcases given : step state with ⟨outcome, later⟩
  rcases given' : step' state' with ⟨outcome', later'⟩
  rw [given, given'] at same kept
  obtain rfl : outcome = outcome' := same
  cases outcome with
  | error error => exact ⟨rfl, kept⟩
  | ok value => exact second value later later' given kept

theorem agree_bind (first : Agree related step step')
    (second : ∀ value, Agree related (next value) (next' value)) :
    Agree related (step >>= next) (step' >>= next') :=
  fun state state' holds => agree_behind (first state state' holds)
    fun value later later' _ kept => second value later later' kept

end TextGrammar.Effect
