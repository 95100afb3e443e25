import TextGrammar.Loading
import TextGrammar.Proofs.Effect

/-!
What steps of loading ask of an engine that only writes down what it is asked for. The requests of
a step are the same after any earlier ones, so those of a sequence are put one behind the other.
-/

namespace TextGrammar.Load

variable {ω α β : Type} {knows : String → Bool}

/-- The outcome of a step and its requests, from an engine that has been asked for nothing. -/
def trace (knows : String → Bool) (step : Load (Recorder ω) α) :
    Except LoadError α × List (Request ω) :=
  let (outcome, loading) := step ⟨⟨knows, []⟩, []⟩
  (outcome, loading.engine.requests)

/-- Whatever has been asked for before, the step has the outcome and asks for these requests. -/
def Makes (knows : String → Bool) (step : Load (Recorder ω) α) (outcome : Except LoadError α)
    (requests : List (Request ω)) : Prop :=
  ∀ earlier notes, ∃ later,
    step ⟨⟨knows, earlier⟩, notes⟩ = (outcome, ⟨⟨knows, earlier ++ requests⟩, later⟩)

theorem Makes.trace_eq {step : Load (Recorder ω) α} {outcome : Except LoadError α}
    {requests : List (Request ω)} (makes : Makes knows step outcome requests) :
    trace knows step = (outcome, requests) := by
  obtain ⟨later, done⟩ := makes [] []
  simp [trace, done]

/-! ### Steps -/

theorem makes_pure (value : α) :
    Makes knows (pure value : Load (Recorder ω) α) (.ok value) [] :=
  fun earlier notes => ⟨notes, by rw [List.append_nil]; rfl⟩

theorem makes_throw (error : LoadError) :
    Makes knows (throw error : Load (Recorder ω) α) (.error error) [] :=
  fun earlier notes => ⟨notes, by rw [List.append_nil]; rfl⟩

theorem makes_ofExcept (outcome : Except LoadError α) :
    Makes knows (ofExcept outcome : Load (Recorder ω) α) outcome [] :=
  fun earlier notes => ⟨notes, by rw [List.append_nil]; rfl⟩

theorem makes_report (notes : List Note) :
    Makes knows (report notes : Load (Recorder ω) Unit) (.ok ()) [] :=
  fun earlier before => ⟨before ++ notes, by rw [List.append_nil]; rfl⟩

/-- A request is made; the answer says whether a modifier is known. -/
theorem makes_request (knows : String → Bool) (asked : Request ω) :
    ∃ accepted, Makes knows (request asked : Load (Recorder ω) Bool) (.ok accepted) [asked] :=
  ⟨(Recorder.perform asked ⟨knows, []⟩).1.accepted, fun _ notes => ⟨notes ++ [], rfl⟩⟩

theorem makes_bind {step : Load (Recorder ω) α} {next : α → Load (Recorder ω) β} {value : α}
    {outcome : Except LoadError β} {first second : List (Request ω)}
    (one : Makes knows step (.ok value) first) (two : Makes knows (next value) outcome second) :
    Makes knows (step >>= next) outcome (first ++ second) := by
  intro earlier notes
  obtain ⟨between, done⟩ := one earlier notes
  obtain ⟨later, goesOn⟩ := two (earlier ++ first) between
  refine ⟨later, ?_⟩
  rw [Effect.bind_apply, done, ← List.append_assoc]
  exact goesOn

theorem makes_bind_error {step : Load (Recorder ω) α} {next : α → Load (Recorder ω) β}
    {error : LoadError} {requests : List (Request ω)}
    (one : Makes knows step (.error error) requests) :
    Makes knows (step >>= next) (.error error) requests := by
  intro earlier notes
  obtain ⟨later, done⟩ := one earlier notes
  refine ⟨later, ?_⟩
  rw [Effect.bind_apply, done]

/-! ### Steps that ask for nothing -/

/-- The step asks for nothing. -/
def Quiet (knows : String → Bool) (step : Load (Recorder ω) α) : Prop :=
  ∃ outcome, Makes knows step outcome []

theorem quiet_bind {step : Load (Recorder ω) α} {next : α → Load (Recorder ω) β}
    (first : Quiet knows step) (second : ∀ value, Quiet knows (next value)) :
    Quiet knows (step >>= next) := by
  obtain ⟨outcome, makes⟩ := first
  cases outcome with
  | error error => exact ⟨.error error, makes_bind_error makes⟩
  | ok value =>
    obtain ⟨outcome, goesOn⟩ := second value
    exact ⟨outcome, makes_bind makes goesOn⟩

theorem quiet_branches (rule : String) (index : Nat) (entries : List ConditionEntry) :
    Quiet knows (branches rule index entries : Load (Recorder ω) (List Branch)) := by
  induction entries generalizing index with
  | nil => exact ⟨_, makes_pure []⟩
  | cons entry rest ih =>
    refine quiet_bind ⟨_, makes_ofExcept _⟩ ?_
    rintro ⟨branch, notes⟩
    refine quiet_bind ⟨_, makes_report notes⟩ fun _ => ?_
    exact quiet_bind (ih (index + 1)) fun more => ⟨_, makes_pure _⟩

theorem quiet_registration (registry : Registry ω) (name : String) (config : RuleConfig) :
    Quiet knows (registration registry name config : Load (Recorder ω) (Registration ω)) := by
  cases config with
  | static | sequential | range | template => exact ⟨_, makes_pure _⟩
  | function function parameters =>
    rw [registration]
    cases registry.get? function with
    | some definition => exact ⟨_, makes_pure _⟩
    | none => exact ⟨_, makes_throw _⟩
  | weighted values weights =>
    rw [registration]
    by_cases different : values.length ≠ weights.length
    · simp only [if_pos different]
      exact quiet_bind ⟨_, makes_report _⟩ fun _ => ⟨_, makes_pure _⟩
    · simp only [if_neg different]
      exact ⟨_, makes_pure _⟩
  | conditional entries =>
    exact quiet_bind (quiet_branches name 0 entries) fun branches => ⟨_, makes_pure _⟩

end TextGrammar.Load
