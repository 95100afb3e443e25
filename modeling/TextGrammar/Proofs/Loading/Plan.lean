import TextGrammar.Proofs.Config.Forms
import TextGrammar.Proofs.Loading.Exact
import TextGrammar.Proofs.Loading.Related

/-!
Plans of jobs: the settings, the modifiers and the rules that a job comes to before it asks for
anything. Main statement: a job asks for the settings and the modifiers of its plan and registers
its rules up to the first one that cannot be registered.
-/

namespace TextGrammar

/-- What a job comes to. Rules are in their checked form under their names, or there is an error
where the rule should be. -/
structure Plan where
  settings : Option Settings
  modifiers : Option (List String)
  rules : List (Except LoadError (String × RuleConfig))

namespace Load

/-- The checked form of a tagged rule. -/
def taggedConfig (name : String) (value : Value) : Except LoadError RuleConfig :=
  match value with
  | .map _ => Tagged.rule name value
  | _ => .error (.ofRuleType .null name)

/-- The plan of a configuration, whose depth limit has to be positive. -/
def configPlan (config : GrammarConfig) : Except LoadError Plan :=
  let plan : Plan := ⟨config.settings, config.modifiers,
    config.rules.entries.map .ok⟩
  match config.settings.bind Settings.maxDepth with
  | some depth => if depth < 1 then .error (.depthNotPositive depth) else .ok plan
  | none => .ok plan

/-- The plan of a document. -/
def documentPlan (value : Value) : Except LoadError Plan :=
  match value with
  | .map fields => do
    let settings? ← Settings.ofValue? (Fields.get fields "settings")
    let names? ← modifierNames? (Fields.get fields "modifiers")
    match Fields.get fields "rules" with
    | .map entries =>
      return ⟨settings?, names?, entries.map (RuleConfig.ofEntry taggedConfig)⟩
    | _ => throw (.misfit (.noRules .grammar))
  | value => throw (.misfit (.notConfig value))

/-- The plan of a job, or the error that stops it before it asks for anything. -/
def Job.plan : Job → Except LoadError Plan
  | .document value => documentPlan value
  | .grammar config => configPlan config
  | .json text => do documentPlan (← Document.ofJson text)
  | .keywords value => do configPlan (← Keyword.grammar value)
  | .rule name value => .ok ⟨none, none, [do return (name, ← taggedConfig name value)]⟩
  | .single name kind value => do
    let config ← (Keyword.partsOfKind value kind).mapError LoadError.fault
    configPlan ⟨Table.empty.put name config, none, none⟩

variable {ω : Type}

/-- What a rule is registered as with the functions of a registry. -/
def registered (registry : Registry ω) (name : String) (config : RuleConfig) :
    Except LoadError (Registration ω) :=
  let step : Load (Recorder ω) (Registration ω) := registration registry name config
  (trace (fun _ => false) step).1

/-- What rules are registered as, up to the first one that cannot be registered. -/
def registerRules (registry : Registry ω) :
    List (Except LoadError (String × RuleConfig)) →
      Except LoadError Unit × List (String × Registration ω)
  | [] => (.ok (), [])
  | .error error :: _ => (.error error, [])
  | .ok (name, config) :: rest =>
    match registered registry name config with
    | .error error => (.error error, [])
    | .ok registration =>
      let (outcome, more) := registerRules registry rest
      (outcome, (name, registration) :: more)

/-- What a job registers under which names. -/
def Job.registrations (registry : Registry ω) (job : Job) : List (String × Registration ω) :=
  match job.plan with
  | .ok plan => (registerRules registry plan.rules).2
  | .error _ => []

/-! ### Single rules -/

variable {knows : String → Bool}

theorem makes_registration (knows : String → Bool) (registry : Registry ω) (name : String)
    (config : RuleConfig) :
    Makes knows (registration registry name config : Load (Recorder ω) _)
      (registered registry name config) [] := by
  have quiet : Quiet knows (registration registry name config : Load (Recorder ω) _) :=
    quiet_registration registry name config
  obtain ⟨outcome, makes⟩ := quiet
  -- the outcome does not depend on the modifiers that are known
  have same : registered registry name config = outcome := by
    have agree : Agree (fun _ _ : Recorder ω => True) (registration registry name config)
        (registration registry name config) := agree_registration registry name config
    have unknown := (agree ⟨⟨fun _ => false, []⟩, []⟩ ⟨⟨knows, []⟩, []⟩ trivial).1
    obtain ⟨later, done⟩ := makes [] []
    rw [done] at unknown
    exact unknown
  exact same ▸ makes

/-- The handler of a function rule is that of the registry, if it has one. -/
theorem registered_function (registry : Registry ω) (name function : String)
    (parameters : Option Fields) :
    registered registry name (.function function parameters) =
      match registry.get? function with
      | some definition => .ok (.function definition.handler (parameters.getD []))
      | none => .error (.unknownFunction function) := by
  simp only [registered, registration]
  cases registry.get? function <;> rfl

/-- Only the configuration of a function rule is registered as a function. -/
theorem registered_eq_function {registry : Registry ω} {name : String} {config : RuleConfig}
    {handler : Handler ω} {parameters : Fields}
    (is : registered registry name config = .ok (.function handler parameters)) :
    ∃ function given definition, config = .function function given ∧
      registry.get? function = some definition ∧ handler = definition.handler ∧
      parameters = given.getD [] := by
  cases config with
  | function function given =>
    rw [registered_function] at is
    cases found : registry.get? function with
    | none => simp [found] at is
    | some definition =>
      simp only [found, Except.ok.injEq, Registration.function.injEq] at is
      exact ⟨function, given, definition, rfl, found, is.1.symm, is.2.symm⟩
  | static | sequential | range | template => cases is
  | weighted values weights =>
    simp only [registered, registration] at is
    split at is <;> cases is
  | conditional entries =>
    have quiet : Quiet (fun _ => false) (branches name 0 entries : Load (Recorder ω) _) :=
      quiet_branches name 0 entries
    obtain ⟨outcome, found⟩ := quiet
    cases outcome with
    | error error =>
      have failed : Makes (fun _ => false)
          (registration registry name (.conditional entries) : Load (Recorder ω) _)
          (.error error) [] := makes_bind_error found
      simp only [registered, failed.trace_eq] at is
      cases is
    | ok given =>
      have made : Makes (fun _ => false)
          (registration registry name (.conditional entries) : Load (Recorder ω) _)
          (.ok (.conditional given)) [] := makes_bind found (makes_pure _)
      simp only [registered, made.trace_eq] at is
      cases is

/-! ### Rules in their order -/

/-- The step registers the rule under its name, or fails with the error that stands in its place or
that it cannot be registered for, and asks for nothing. -/
def Registers (knows : String → Bool) (registry : Registry ω) (step : Load (Recorder ω) Unit) :
    Except LoadError (String × RuleConfig) → Prop
  | .error error => Makes knows step (.error error) []
  | .ok (name, config) => match registered registry name config with
    | .error error => Makes knows step (.error error) []
    | .ok registration => Makes knows step (.ok ()) [.register name registration]

theorem registers_rule (knows : String → Bool) (registry : Registry ω) (name : String)
    (config : RuleConfig) :
    Registers knows registry (rule registry name config) (.ok (name, config)) := by
  have makes := makes_registration knows registry name config
  rw [Registers]
  cases result : registered registry name config with
  | error error =>
    rw [result] at makes
    exact makes_bind_error makes
  | ok registration =>
    rw [result] at makes
    obtain ⟨accepted, asked⟩ := makes_request knows (.register name registration)
    exact makes_bind makes (makes_bind asked (makes_report _))

/-- What is read first decides on the rule. -/
theorem registers_ofExcept {registry : Registry ω} {β : Type} (outcome : Except LoadError β)
    {next : β → Load (Recorder ω) Unit} {rule : β → Except LoadError (String × RuleConfig)}
    (goesOn : ∀ value, Registers knows registry (next value) (rule value)) :
    Registers knows registry (ofExcept outcome >>= next) (outcome >>= rule) := by
  have read : Makes knows (ofExcept outcome : Load (Recorder ω) β) outcome [] := makes_ofExcept _
  cases outcome with
  | error error => exact makes_bind_error read
  | ok value =>
    have registers := goesOn value
    show Registers knows registry _ (rule value)
    cases given : rule value with
    | error error =>
      rw [given] at registers
      exact makes_bind read registers
    | ok entry =>
      obtain ⟨name, config⟩ := entry
      rw [given] at registers
      simp only [Registers] at registers ⊢
      cases result : registered registry name config with
      | error error =>
        rw [result] at registers
        exact makes_bind read registers
      | ok registration =>
        rw [result] at registers
        exact makes_bind read registers

theorem registers_taggedRule (knows : String → Bool) (registry : Registry ω) (name : String)
    (value : Value) :
    Registers knows registry (taggedRule registry name value)
      (do return (name, ← taggedConfig name value)) := by
  cases value with
  | scalar | list => exact makes_throw _
  | map fields =>
    exact registers_ofExcept (Tagged.rule name (.map fields)) (registers_rule knows registry name)

theorem registers_taggedEntry (knows : String → Bool) (registry : Registry ω)
    (entry : Scalar × Value) :
    Registers knows registry (taggedEntry registry entry)
      (RuleConfig.ofEntry taggedConfig entry) := by
  rw [taggedEntry, ofFault, RuleConfig.ofEntry, LoadError.liftM_eq_mapError]
  exact registers_ofExcept _ fun name => registers_taggedRule knows registry name entry.2

/-- The requests that register rules. -/
def registerRequests (rules : List (String × Registration ω)) : List (Request ω) :=
  rules.map fun entry => .register entry.1 entry.2

theorem makes_registerRules {registry : Registry ω} {α : Type}
    {load : α → Load (Recorder ω) Unit} {rule : α → Except LoadError (String × RuleConfig)}
    (one : ∀ entry, Registers knows registry (load entry) (rule entry)) (entries : List α) :
    let effect := registerRules registry (entries.map rule)
    Makes knows (each load entries) effect.1 (registerRequests effect.2) := by
  induction entries with
  | nil => exact makes_pure ()
  | cons entry rest ih =>
    have first := one entry
    rw [List.map_cons]
    cases given : rule entry with
    | error error =>
      rw [given] at first
      exact makes_bind_error first
    | ok named =>
      obtain ⟨name, config⟩ := named
      rw [given] at first
      simp only [Registers] at first
      simp only [registerRules]
      cases result : registered registry name config with
      | error error =>
        rw [result] at first
        exact makes_bind_error first
      | ok registration =>
        rw [result] at first
        exact makes_bind first ih

section

variable {registry : Registry ω}
  {loaded rest rules : List (Except LoadError (String × RuleConfig))}

/-- If all of the first rules are registered, the others are registered as they are by
themselves. -/
theorem registerRules_append (whole : (registerRules registry loaded).1 = .ok ()) :
    registerRules registry (loaded ++ rest) =
      ((registerRules registry rest).1,
        (registerRules registry loaded).2 ++ (registerRules registry rest).2) := by
  induction loaded with
  | nil => rfl
  | cons rule loaded ih =>
    rw [List.cons_append]
    cases rule with
    | error error => cases whole
    | ok named =>
      obtain ⟨name, config⟩ := named
      simp only [registerRules] at whole ⊢
      cases result : registered registry name config with
      | error error =>
        rw [result] at whole
        cases whole
      | ok registration =>
        rw [result] at whole
        rw [ih whole]
        rfl

variable {name : String} {config : RuleConfig}

theorem registerRules_of_ok (whole : (registerRules registry loaded).1 = .ok ())
    {registration : Registration ω} (is : registered registry name config = .ok registration) :
    (registerRules registry (loaded ++ .ok (name, config) :: rest)).2 =
      (registerRules registry loaded).2 ++
        (name, registration) :: (registerRules registry rest).2 := by
  simp only [registerRules_append whole, registerRules, is]

/-- The first rule that cannot be registered stops the others. -/
theorem registerRules_of_error (whole : (registerRules registry loaded).1 = .ok ())
    {error : LoadError} (failed : registered registry name config = .error error)
    (rest : List (Except LoadError (String × RuleConfig))) :
    registerRules registry (loaded ++ .ok (name, config) :: rest) =
      (.error error, (registerRules registry loaded).2) := by
  simp only [registerRules_append whole, registerRules, failed, List.append_nil]

/-- Each registration is that of a rule, and all rules before are registered. -/
theorem registerRules_split {registration : Registration ω}
    {before after : List (String × Registration ω)}
    (split : (registerRules registry rules).2 = before ++ (name, registration) :: after) :
    ∃ loaded config rest, rules = loaded ++ .ok (name, config) :: rest ∧
      registerRules registry loaded = (.ok (), before) ∧
      registered registry name config = .ok registration ∧
      (registerRules registry rest).2 = after := by
  induction rules generalizing before with
  | nil => exact absurd split.symm (List.append_ne_nil_of_right_ne_nil _ (List.cons_ne_nil _ _))
  | cons rule rules ih =>
    cases rule with
    | error error =>
      exact absurd split.symm (List.append_ne_nil_of_right_ne_nil _ (List.cons_ne_nil _ _))
    | ok named =>
      obtain ⟨first, config⟩ := named
      simp only [registerRules] at split
      cases is : registered registry first config with
      | error error =>
        rw [is] at split
        exact absurd split.symm (List.append_ne_nil_of_right_ne_nil _ (List.cons_ne_nil _ _))
      | ok given =>
        rw [is] at split
        cases before with
        | nil =>
          obtain ⟨same, rfl⟩ := List.cons.inj split
          cases same
          exact ⟨[], config, rules, rfl, rfl, is, rfl⟩
        | cons entry before =>
          simp only [List.cons_append, List.cons.injEq] at split
          obtain ⟨rfl, behind⟩ := split
          obtain ⟨loaded, other, rest, rfl, whole, is', behind⟩ := ih behind
          refine ⟨.ok (first, config) :: loaded, other, rest, rfl, ?_, is', behind⟩
          simp only [registerRules, is, whole]

/-- What is registered under a name is a rule of this name. -/
theorem exists_of_mem_registerRules {entry : String × Registration ω}
    (member : entry ∈ (registerRules registry rules).2) :
    ∃ config, .ok (entry.1, config) ∈ rules ∧
      registered registry entry.1 config = .ok entry.2 := by
  obtain ⟨before, after, split⟩ := List.append_of_mem member
  obtain ⟨loaded, config, rest, rfl, -, is, -⟩ := registerRules_split split
  exact ⟨config, by simp, is⟩

end

/-! ### Plans -/

/-- The requests of a plan: settings, modifiers, and the rules up to the first one that cannot be
registered. -/
def requests (registry : Registry ω) (plan : Plan) : List (Request ω) :=
  givenRequests plan.settings ++ (plan.modifiers.getD []).map Request.loadModifier ++
    registerRequests (registerRules registry plan.rules).2

/-- A step has the effect of a plan, or it fails with the error instead and asks for nothing. -/
def Follows (knows : String → Bool) (registry : Registry ω) (step : Load (Recorder ω) Unit) :
    Except LoadError Plan → Prop
  | .ok plan => Makes knows step (registerRules registry plan.rules).1 (requests registry plan)
  | .error error => Makes knows step (.error error) []

variable {registry : Registry ω}

theorem follows_throw (error : LoadError) :
    Follows knows registry (throw error : Load (Recorder ω) Unit) (throw error) :=
  makes_throw error

/-- What is read first decides on the plan. -/
theorem follows_ofExcept {β : Type} {outcome : Except LoadError β}
    {next : β → Load (Recorder ω) Unit} {plan : β → Except LoadError Plan}
    (goesOn : ∀ value, outcome = .ok value → Follows knows registry (next value) (plan value)) :
    Follows knows registry (ofExcept outcome >>= next) (outcome >>= plan) := by
  have read : Makes knows (ofExcept outcome : Load (Recorder ω) β) outcome [] := makes_ofExcept _
  cases outcome with
  | error error => exact makes_bind_error read
  | ok value =>
    have follows := goesOn value rfl
    show Follows knows registry _ (plan value)
    cases given : plan value with
    | error error =>
      rw [given] at follows
      exact makes_bind read follows
    | ok plan =>
      rw [given] at follows
      show Makes knows _ _ ([] ++ requests registry plan)
      exact makes_bind read follows

theorem follows_parts {settings? : Option Settings} (names? : Option (List String)) {α : Type}
    {load : α → Load (Recorder ω) Unit} {rule : α → Except LoadError (String × RuleConfig)}
    (positive : ∀ given, settings? = some given → Positive given)
    (one : ∀ entry, Registers knows registry (load entry) (rule entry)) (entries : List α) :
    Follows knows registry (parts settings? names? load entries)
      (.ok ⟨settings?, names?, entries.map rule⟩) :=
  makes_parts names? positive (makes_registerRules one entries)

theorem follows_grammar (config : GrammarConfig) :
    Follows knows registry (grammar registry config) (configPlan config) := by
  have one (entry : String × RuleConfig) :
      Registers knows registry (rule registry entry.1 entry.2) (.ok entry) :=
    registers_rule knows registry entry.1 entry.2
  rw [grammar, configPlan]
  cases depth? : config.settings.bind Settings.maxDepth with
  | none =>
    refine follows_parts _ (fun given is depth limit => ?_) one config.rules.entries
    simp [is, limit] at depth?
  | some depth =>
    obtain ⟨given, is, limit⟩ := Option.bind_eq_some_iff.mp depth?
    by_cases small : depth < 1
    · simp only [if_pos small, is]
      exact parts_refused limit small
    · simp only [if_neg small]
      refine follows_parts _ (fun other same depth' limit' => ?_) one config.rules.entries
      rw [is] at same
      cases same
      rw [limit] at limit'
      cases limit'
      omega

theorem follows_document (value : Value) :
    Follows knows registry (document registry value) (documentPlan value) := by
  cases value with
  | scalar | list => exact follows_throw _
  | map fields =>
    refine follows_ofExcept fun settings? read => ?_
    refine follows_ofExcept fun names? _ => ?_
    cases Fields.get fields "rules" with
    | scalar | list => exact follows_throw _
    | map entries =>
      have positive : ∀ given, settings? = some given → Positive given := by
        rintro given rfl
        exact positive_of_ofValue? read
      exact follows_parts names? positive (registers_taggedEntry knows registry) entries

/-- A job has the effect of its plan. -/
theorem follows_run (knows : String → Bool) (registry : Registry ω) (job : Job) :
    Follows knows registry (run registry job) job.plan := by
  cases job with
  | document value => exact follows_document value
  | grammar config => exact follows_grammar config
  | json text => exact follows_ofExcept fun value _ => follows_document value
  | keywords value => exact follows_ofExcept fun config _ => follows_grammar config
  | rule name value =>
    have registers := registers_taggedRule knows registry name value
    show Makes knows _ _ _
    simp only [requests]
    cases given : (do return (name, ← taggedConfig name value)) with
    | error error =>
      rw [given] at registers
      exact registers
    | ok named =>
      obtain ⟨called, config⟩ := named
      rw [given] at registers
      simp only [Registers] at registers
      simp only [registerRules]
      cases result : registered registry called config with
      | error error =>
        rw [result] at registers
        exact registers
      | ok registration =>
        rw [result] at registers
        exact registers
  | single name kind value => exact follows_ofExcept fun config _ => follows_grammar _

/-- A job asks for what its plan says, with the outcome of registering the rules of the plan; if
there is no plan, it asks for nothing. -/
theorem trace_run (knows : String → Bool) (registry : Registry ω) (job : Job) :
    trace knows (run registry job) = match job.plan with
      | .ok plan => ((registerRules registry plan.rules).1, requests registry plan)
      | .error error => (.error error, []) := by
  have follows := follows_run knows registry job
  cases given : job.plan with
  | error error =>
    rw [given] at follows
    exact follows.trace_eq
  | ok plan =>
    rw [given] at follows
    exact follows.trace_eq

end Load

end TextGrammar
