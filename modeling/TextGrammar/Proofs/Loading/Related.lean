import TextGrammar.Engine.Basic
import TextGrammar.Proofs.Loading.Makes

/-!
Loading asks engines for the same things, whatever they answer. Main statements: engines of two
kinds that requests keep related are related behind any job; a job has the same outcome for every
engine; and an engine becomes what the requests make of it that a recorder writes down.
-/

namespace TextGrammar

namespace Load

variable {ε ε' ω α β : Type} {related : ε → ε' → Prop}

/-- From related engines, the steps have the same outcome and end in related engines. Their notes
may differ. -/
def Agree (related : ε → ε' → Prop) (step : Load ε α) (step' : Load ε' α) : Prop :=
  ∀ loading loading', related loading.engine loading'.engine →
    (step loading).1 = (step' loading').1 ∧
      related (step loading).2.engine (step' loading').2.engine

/-! ### Steps that ask for nothing -/

theorem agree_pure (value : α) : Agree related (pure value) (pure value) :=
  fun _ _ holds => ⟨rfl, holds⟩

theorem agree_throw (error : LoadError) :
    Agree related (throw error : Load ε α) (throw error) :=
  fun _ _ holds => ⟨rfl, holds⟩

theorem agree_ofExcept (outcome : Except LoadError α) :
    Agree related (ofExcept outcome) (ofExcept outcome) :=
  fun _ _ holds => ⟨rfl, holds⟩

theorem agree_report (notes : List Note) : Agree related (report notes) (report notes) :=
  fun _ _ holds => ⟨rfl, holds⟩

/-- Notes on one side only do not matter. -/
theorem agree_reported_left (notes : List Note) {step : Load ε α} {step' : Load ε' α}
    (agree : Agree related step step') :
    Agree related (report notes >>= fun _ => step) step' :=
  fun loading loading' holds =>
    agree { loading with notes := loading.notes ++ notes } loading' holds

theorem agree_reported_right (notes : List Note) {step : Load ε α} {step' : Load ε' α}
    (agree : Agree related step step') :
    Agree related step (report notes >>= fun _ => step') :=
  fun loading loading' holds =>
    agree loading { loading' with notes := loading'.notes ++ notes } holds

theorem agree_bind {step : Load ε α} {step' : Load ε' α} {next : α → Load ε β}
    {next' : α → Load ε' β} (first : Agree related step step')
    (second : ∀ value, Agree related (next value) (next' value)) :
    Agree related (step >>= next) (step' >>= next') :=
  -- steps of loading agree as steps of any kind, on states whose engines are related
  Effect.agree_bind first second

theorem agree_branches (rule : String) (index : Nat) (entries : List ConditionEntry) :
    Agree related (branches rule index entries) (branches rule index entries) := by
  induction entries generalizing index with
  | nil => exact agree_pure []
  | cons entry rest ih =>
    refine agree_bind (agree_ofExcept _) fun given => ?_
    refine agree_bind (agree_report given.2) fun _ => ?_
    exact agree_bind (ih (index + 1)) fun more => agree_pure _

theorem agree_registration (registry : Registry ω) (name : String) (config : RuleConfig) :
    Agree related (registration registry name config) (registration registry name config) := by
  cases config with
  | static | sequential | range | template => exact agree_pure _
  | function function parameters =>
    simp only [registration]
    cases registry.get? function with
    | some definition => exact agree_pure _
    | none => exact agree_throw _
  | weighted values weights =>
    simp only [registration]
    by_cases different : values.length ≠ weights.length
    · simp only [if_pos different]
      exact agree_bind (agree_report _) fun _ => agree_pure _
    · simp only [if_neg different]
      exact agree_pure _
  | conditional entries =>
    exact agree_bind (agree_branches name 0 entries) fun branches => agree_pure _

/-! ### Requests -/

variable [Performs ε ω] [Performs ε' ω]

/-- Requests keep engines related. Their answers may differ. -/
def Respects (related : ε → ε' → Prop) : Prop :=
  ∀ engine engine', related engine engine' → ∀ asked : Request ω,
    related (Performs.perform asked engine).2 (Performs.perform asked engine').2

/-- Behind a request the steps have to agree whatever the answers are. -/
theorem agree_request (respects : Respects related) (asked : Request ω) {next : Bool → Load ε α}
    {next' : Bool → Load ε' α}
    (goesOn : ∀ answer answer', Agree related (next answer) (next' answer')) :
    Agree related (request asked >>= next) (request asked >>= next') := by
  intro loading loading' holds
  rw [Effect.bind_apply, Effect.bind_apply]
  exact goesOn _ _ _ _ (respects _ _ holds asked)

/-! ### Jobs -/

variable (respects : Respects related) (registry : Registry ω)

include respects

theorem agree_rule (name : String) (config : RuleConfig) :
    Agree related (rule registry name config) (rule registry name config) :=
  agree_bind (agree_registration registry name config) fun _ =>
    agree_request respects _ fun _ _ => agree_report _

theorem agree_taggedRule (name : String) (value : Value) :
    Agree related (taggedRule registry name value) (taggedRule registry name value) := by
  cases value with
  | scalar | list => exact agree_throw _
  | map fields => exact agree_bind (agree_ofExcept _) (agree_rule respects registry name)

theorem agree_taggedEntry (entry : Scalar × Value) :
    Agree related (taggedEntry registry entry) (taggedEntry registry entry) :=
  agree_bind (agree_ofExcept _) fun name => agree_taggedRule respects registry name entry.2

omit [Performs ε ω] [Performs ε' ω] respects in
theorem agree_each {load : α → Load ε Unit} {load' : α → Load ε' Unit}
    (one : ∀ entry, Agree related (load entry) (load' entry)) (rules : List α) :
    Agree related (each load rules) (each load' rules) := by
  induction rules with
  | nil => exact agree_pure ()
  | cons first rest ih => exact agree_bind (one first) fun _ => ih

theorem agree_settings (given : Settings) : Agree related (settings given) (settings given) := by
  have seeded (seed? : Option Int) :
      Agree related (settings ⟨none, seed?⟩) (settings ⟨none, seed?⟩) := by
    cases seed? with
    | none => exact agree_pure ()
    | some seed => exact agree_request respects _ fun _ _ => agree_pure ()
  obtain ⟨maxDepth, randomSeed⟩ := given
  cases maxDepth with
  | none => exact seeded randomSeed
  | some depth =>
    by_cases small : depth < 1
    · simp only [settings, if_pos small]
      exact agree_bind (agree_throw _) fun _ =>
        agree_request respects _ fun _ _ => seeded randomSeed
    · simp only [settings, if_neg small]
      exact agree_request respects _ fun _ _ => seeded randomSeed

theorem agree_modifiers (names : List String) :
    Agree related (modifiers names) (modifiers names) := by
  induction names with
  | nil => exact agree_pure ()
  | cons name rest ih =>
    refine agree_request respects _ fun answer answer' => ?_
    cases answer with
    | true =>
      cases answer' with
      | true => exact ih
      | false => exact agree_reported_right _ ih
    | false =>
      cases answer' with
      | true => exact agree_reported_left _ ih
      | false => exact agree_reported_left _ (agree_reported_right _ ih)

theorem agree_parts {settings? : Option Settings} {names? : Option (List String)}
    {load : α → Load ε Unit} {load' : α → Load ε' Unit}
    (one : ∀ entry, Agree related (load entry) (load' entry)) (rules : List α) :
    Agree related (parts settings? names? load rules) (parts settings? names? load' rules) := by
  have behind : Agree related
      (do modifiers (names?.getD []); each load rules
          report [⟨.info, .loading, s!"Loaded {rules.length} rule(s)"⟩])
      (do modifiers (names?.getD []); each load' rules
          report [⟨.info, .loading, s!"Loaded {rules.length} rule(s)"⟩]) :=
    agree_bind (agree_modifiers respects _) fun _ =>
      agree_bind (agree_each one rules) fun _ => agree_report _
  cases settings? with
  | none => exact behind
  | some given => exact agree_bind (agree_settings respects given) fun _ => behind

theorem agree_grammar (config : GrammarConfig) :
    Agree related (grammar registry config) (grammar registry config) := by
  have one (entry : String × RuleConfig) : Agree related (rule registry entry.1 entry.2)
      (rule registry entry.1 entry.2) := agree_rule respects registry entry.1 entry.2
  exact agree_parts respects one config.rules.entries

theorem agree_document (value : Value) :
    Agree related (document registry value) (document registry value) := by
  cases value with
  | scalar | list => exact agree_throw _
  | map fields =>
    refine agree_bind (agree_ofExcept _) fun settings? => ?_
    refine agree_bind (agree_ofExcept _) fun names? => ?_
    cases Fields.get fields "rules" with
    | map entries => exact agree_parts respects (agree_taggedEntry respects registry) entries
    | scalar | list => exact agree_throw _

/-- Engines that requests keep related are related behind every job, and the outcome is the
same. -/
theorem agree_run (job : Job) : Agree related (run registry job) (run registry job) := by
  cases job with
  | document value => exact agree_document respects registry value
  | grammar config => exact agree_grammar respects registry config
  | json text => exact agree_bind (agree_ofExcept _) (agree_document respects registry)
  | keywords value => exact agree_bind (agree_ofExcept _) (agree_grammar respects registry)
  | rule name value => exact agree_taggedRule respects registry name value
  | single name kind value =>
    exact agree_bind (agree_ofExcept _) fun config => agree_grammar respects registry _

omit respects in
/-- A job has the same outcome for every engine. -/
theorem outcome_eq (job : Job) (loading : Loading ε) (loading' : Loading ε') :
    (run registry job loading).1 = (run registry job loading').1 := by
  have unrelated : Respects (fun (_ : ε) (_ : ε') => True) := fun _ _ _ _ => trivial
  exact (agree_run unrelated registry job loading loading' trivial).1

end Load

/-! ### Requests as they are written down -/

variable {ρ ω : Type} [Seeded ρ]

/-- The engine behind requests that are performed one after the other. -/
def Engine.performAll (engine : Engine ρ ω) (requests : List (Request ω)) : Engine ρ ω :=
  requests.foldl (fun engine request => (engine.perform request).2) engine

/-- The engine is what the requests of the recorder make of the one at the start. -/
def Engine.Follows (start engine : Engine ρ ω) (recorder : Recorder ω) : Prop :=
  engine = start.performAll recorder.requests

theorem Engine.respects_follows (start : Engine ρ ω) : Load.Respects start.Follows := by
  rintro engine recorder rfl asked
  show _ = start.performAll (recorder.requests ++ [asked])
  simp only [Engine.performAll, List.foldl_append, List.foldl_cons, List.foldl_nil]
  rfl

/-- A job makes of an engine what the requests make of it that a recorder writes down, whichever
modifiers the recorder knows. -/
theorem Load.run_eq_performAll (knows : String → Bool) (registry : Registry ω) (job : Load.Job)
    (engine : Engine ρ ω) (notes : List Note) :
    ((Load.run registry job : Load (Engine ρ ω) Unit) ⟨engine, notes⟩).2.engine =
      engine.performAll (Load.trace knows (Load.run registry job)).2 := by
  obtain ⟨-, follows⟩ := Load.agree_run (Engine.respects_follows engine) registry job
    ⟨engine, notes⟩ ⟨⟨knows, []⟩, []⟩ rfl
  exact follows

end TextGrammar
