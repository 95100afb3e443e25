import TextGrammar.Proofs.History.Bound

/-!
Documents that differ in the seeds of their settings. Main statement: loading them has the same
outcome and leaves engines behind that are the same but for their seeds and generators.
-/

namespace TextGrammar

variable {ρ ω : Type}

/-! ### Plans -/

/-- The plans are the same but for the seeds of their settings. -/
structure Plan.AlikeButSeed (plan plan' : Plan) : Prop where
  maxDepth : plan.settings.bind Settings.maxDepth = plan'.settings.bind Settings.maxDepth
  modifiers : plan.modifiers = plan'.modifiers
  rules : plan.rules = plan'.rules

/-- Either both are plans that are the same but for the seeds, or there is the same error. -/
inductive Plan.SameButSeed : Except LoadError Plan → Except LoadError Plan → Prop where
  | plans {plan plan' : Plan} (alike : plan.AlikeButSeed plan') : SameButSeed (.ok plan) (.ok plan')
  | errors (error : LoadError) : SameButSeed (.error error) (.error error)

/-- The documents are the same but for the seeds of their settings, as far as loading reads them,
and the settings of both are in order. -/
structure Document.AlikeButSeed (fields fields' : Fields) : Prop where
  settings : ∃ given given', Settings.ofValue? (Fields.get fields "settings") = .ok given ∧
    Settings.ofValue? (Fields.get fields' "settings") = .ok given' ∧
    given.bind Settings.maxDepth = given'.bind Settings.maxDepth
  modifiers : Fields.get fields "modifiers" = Fields.get fields' "modifiers"
  rules : Fields.get fields "rules" = Fields.get fields' "rules"

/-- The job of a document that the program is given. -/
def Load.Job.ofDocument (keywords : Bool) (value : Value) : Load.Job :=
  if keywords then .keywords value else .document value

namespace Load

theorem configPlan_alike {config config' : GrammarConfig}
    (maxDepth : config.settings.bind Settings.maxDepth = config'.settings.bind Settings.maxDepth)
    (modifiers : config.modifiers = config'.modifiers) (rules : config.rules = config'.rules) :
    Plan.SameButSeed (configPlan config) (configPlan config') := by
  have alike : Plan.AlikeButSeed
      ⟨config.settings, config.modifiers, config.rules.entries.map .ok⟩
      ⟨config'.settings, config'.modifiers, config'.rules.entries.map .ok⟩ :=
    ⟨maxDepth, modifiers, by rw [rules]⟩
  unfold configPlan
  rw [← maxDepth]
  cases config.settings.bind Settings.maxDepth with
  | none => exact .plans alike
  | some depth =>
    by_cases small : depth < 1
    · simp only [if_pos small]
      exact .errors _
    · simp only [if_neg small]
      exact .plans alike

/-- What is read first from both is the same. -/
theorem sameButSeed_bind {α : Type} {outcome : Except LoadError α}
    {plan plan' : α → Except LoadError Plan}
    (goesOn : ∀ value, Plan.SameButSeed (plan value) (plan' value)) :
    Plan.SameButSeed (outcome >>= plan) (outcome >>= plan') := by
  cases outcome with
  | error error => exact .errors error
  | ok value => exact goesOn value

theorem plan_alike {fields fields' : Fields} (alike : Document.AlikeButSeed fields fields')
    (keywords : Bool) :
    Plan.SameButSeed (Job.ofDocument keywords (.map fields)).plan
      (Job.ofDocument keywords (.map fields')).plan := by
  obtain ⟨⟨given, given', read, read', maxDepth⟩, modifiers, rules⟩ := alike
  cases keywords with
  | false =>
    show Plan.SameButSeed (documentPlan (.map fields)) (documentPlan (.map fields'))
    simp only [documentPlan, read, read', modifiers, rules]
    show Plan.SameButSeed (modifierNames? _ >>= _) (modifierNames? _ >>= _)
    refine sameButSeed_bind fun names? => ?_
    cases Fields.get fields' "rules" with
    | scalar | list => exact .errors _
    | map entries => exact .plans ⟨maxDepth, rfl, rfl⟩
  | true =>
    show Plan.SameButSeed (Keyword.grammar (.map fields) >>= configPlan)
      (Keyword.grammar (.map fields') >>= configPlan)
    simp only [Keyword.grammar, GrammarConfig.ofDocument, Value.fieldsOrEmpty, read, read',
      modifiers, rules]
    cases Fields.get fields' "rules" with
    | scalar | list => exact .errors _
    | map entries =>
      simp only [bind_assoc]
      refine sameButSeed_bind fun table => ?_
      refine sameButSeed_bind fun names? => ?_
      exact configPlan_alike maxDepth rfl rfl

end Load

/-! ### Engines -/

/-- The engines are the same but for their seeds and generators. -/
structure Engine.AlikeButSeed (engine engine' : Engine ρ ω) : Prop where
  rules : engine.rules = engine'.rules
  modifiers : engine.modifiers = engine'.modifiers
  context : engine.context = engine'.context
  maxDepth : engine.maxDepth = engine'.maxDepth

namespace Engine

variable [Seeded ρ] {engine engine' : Engine ρ ω}

/-- With the same seed they are the same. -/
theorem AlikeButSeed.setSeed (alike : engine.AlikeButSeed engine') (seed : Int) :
    engine.setSeed seed = engine'.setSeed seed := by
  obtain ⟨rules, modifiers, context, maxDepth, seed, generator⟩ := engine
  obtain ⟨rules', modifiers', context', maxDepth', seed', generator'⟩ := engine'
  obtain ⟨rfl, rfl, rfl, rfl⟩ := alike
  rfl

theorem AlikeButSeed.perform (alike : engine.AlikeButSeed engine') (request : Request ω) :
    (engine.perform request).2.AlikeButSeed (engine'.perform request).2 := by
  obtain ⟨rules, modifiers, context, maxDepth, seed, generator⟩ := engine
  obtain ⟨rules', modifiers', context', maxDepth', seed', generator'⟩ := engine'
  obtain ⟨rfl, rfl, rfl, rfl⟩ := alike
  cases request with
  | register | setSeed => exact ⟨rfl, rfl, rfl, rfl⟩
  | setMaxDepth depth =>
    simp only [Engine.perform, Engine.setMaxDepth]
    by_cases small : depth < 1
    · simp only [if_pos small]
      exact ⟨rfl, rfl, rfl, rfl⟩
    · simp only [if_neg small]
      exact ⟨rfl, rfl, rfl, rfl⟩
  | loadModifier name =>
    simp only [Engine.perform, Engine.loadModifier]
    cases Modifier.ofName? name <;> exact ⟨rfl, rfl, rfl, rfl⟩

theorem AlikeButSeed.performAll (alike : engine.AlikeButSeed engine')
    (requests : List (Request ω)) :
    (engine.performAll requests).AlikeButSeed (engine'.performAll requests) := by
  induction requests generalizing engine engine' with
  | nil => exact alike
  | cons request rest ih => exact ih (alike.perform request)

/-- Requests for seeds do not matter. -/
theorem AlikeButSeed.seeds (alike : engine.AlikeButSeed engine') (seed? seed?' : Option Int) :
    (engine.performAll (seed?.map Request.setSeed).toList).AlikeButSeed
      (engine'.performAll (seed?'.map Request.setSeed).toList) := by
  obtain ⟨rules, modifiers, context, maxDepth⟩ := alike
  cases seed? <;> cases seed?' <;> exact ⟨rules, modifiers, context, maxDepth⟩

theorem performAll_append (engine : Engine ρ ω) (first second : List (Request ω)) :
    engine.performAll (first ++ second) = (engine.performAll first).performAll second :=
  List.foldl_append

theorem performAll_givenRequests (engine : Engine ρ ω) (settings? : Option Settings) :
    engine.performAll (Load.givenRequests settings?) =
      (engine.performAll
        ((settings?.bind Settings.maxDepth).map Request.setMaxDepth).toList).performAll
          ((settings?.bind Settings.randomSeed).map Request.setSeed).toList := by
  cases settings? with
  | none => rfl
  | some settings => exact performAll_append _ _ _

/-- Plans that are the same but for their seeds make engines that are. -/
theorem AlikeButSeed.requests (alike : engine.AlikeButSeed engine') {plan plan' : Plan}
    (plans : plan.AlikeButSeed plan') (registry : Registry ω) :
    (engine.performAll (Load.requests registry plan)).AlikeButSeed
      (engine'.performAll (Load.requests registry plan')) := by
  obtain ⟨maxDepth, modifiers, rules⟩ := plans
  simp only [Load.requests, performAll_append, performAll_givenRequests, maxDepth, modifiers, rules]
  exact (((alike.performAll _).seeds _ _).performAll _).performAll _

end Engine

/-! ### Loads -/

namespace Session

variable [Draws ρ] [Seeded ρ] [World ω]

/-- The engine behind a load is what the requests of the plan make of it. -/
theorem engine_load (session : Session ρ ω) (job : Load.Job) :
    (session.act (.load job)).2.engine = match job.plan with
      | .ok plan => session.engine.performAll (Load.requests session.registry plan)
      | .error _ => session.engine := by
  have performed := Load.run_eq_performAll (fun _ => true) session.registry job session.engine []
  rw [Load.trace_run] at performed
  refine Eq.trans performed ?_
  cases job.plan <;> rfl

/-- Jobs whose plans are the same but for the seeds have the same outcome, and the engines are the
same but for the seeds behind them. -/
theorem load_alike {session session' : Session ρ ω} {job job' : Load.Job}
    (alike : session.engine.AlikeButSeed session'.engine)
    (registry : session.registry = session'.registry)
    (plans : Plan.SameButSeed job.plan job'.plan) :
    (session.act (.load job)).1.result = (session'.act (.load job')).1.result ∧
      (session.act (.load job)).2.engine.AlikeButSeed (session'.act (.load job')).2.engine := by
  rw [result_load, result_load, engine_load, engine_load, ← registry]
  generalize job.plan = planned at plans
  generalize job'.plan = planned' at plans
  cases plans with
  | errors error => exact ⟨rfl, alike⟩
  | plans same =>
    refine ⟨?_, alike.requests same session.registry⟩
    simp only [bind, Except.bind, same.rules]

end Session

end TextGrammar
