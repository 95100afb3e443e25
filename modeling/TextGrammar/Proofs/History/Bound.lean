import TextGrammar.Proofs.Expansion.Resolutions
import TextGrammar.Proofs.History.Origin
import TextGrammar.Proofs.History.Sequential
import TextGrammar.Proofs.Loading.Plan

/-!
Function rules and the functions that they name. Main statement: a function rule calls the handler
that its function had when the rule was registered last, with the parameters of that registration;
what happens to the functions afterwards matters only to rules that are loaded then.
-/

namespace TextGrammar

variable {ρ ω : Type}

/-- The rules of a table with others registered on top of them. -/
def Table.registered (rules : Table (Rule ω)) (registrations : List (String × Registration ω)) :
    Table (Rule ω) :=
  registrations.foldl (fun rules entry => rules.put entry.1 entry.2.rule) rules

/-- A name that nothing is registered under keeps its rule. -/
theorem Table.get?_registered {rules : Table (Rule ω)} {name : String}
    {registrations : List (String × Registration ω)}
    (spares : ∀ entry ∈ registrations, entry.1 ≠ name) :
    (rules.registered registrations).get? name = rules.get? name := by
  induction registrations generalizing rules with
  | nil => rfl
  | cons entry rest ih =>
    obtain ⟨first, behind⟩ := List.forall_mem_cons.mp spares
    show ((rules.put entry.1 entry.2.rule).registered rest).get? name = _
    rw [ih behind, Table.get?_put_of_ne _ _ first.symm]

/-! ### What loads do to rules -/

/-- Settings and modifiers do nothing to rules. -/
theorem events_requests (registry : Registry ω) (plan : Plan) :
    (Load.requests registry plan).flatMap Request.events =
      (Load.registerRules registry plan.rules).2.map fun entry => .registered entry.1 entry.2 := by
  obtain ⟨settings?, names?, rules⟩ := plan
  have given : (Load.givenRequests settings? : List (Request ω)).flatMap Request.events = [] := by
    cases settings? with
    | none => rfl
    | some settings =>
      obtain ⟨maxDepth, randomSeed⟩ := settings
      cases maxDepth <;> cases randomSeed <;> rfl
  simp [Load.requests, Load.registerRequests, given, Request.events, List.flatMap_map,
    ← List.map_eq_flatMap]

variable [Draws ρ]

/-- Registrations lead to the table with the rules on top. -/
theorem History.eq_registered {rules later : Table (Rule ω)}
    {registrations : List (String × Registration ω)}
    (history : History ρ (registrations.map fun entry => .registered entry.1 entry.2) rules later) :
    later = rules.registered registrations := by
  induction registrations generalizing rules with
  | nil =>
    cases history
    rfl
  | cons entry rest ih =>
    cases history with
    | next first behind =>
      cases first
      exact ih behind

namespace Session

theorem events_load (session : Session ρ ω) (job : Load.Job) :
    session.events (.load job) =
      (job.registrations session.registry).map fun entry => .registered entry.1 entry.2 := by
  rw [events, Load.trace_run, Load.Job.registrations]
  cases job.plan with
  | error error => rfl
  | ok plan => exact events_requests session.registry plan

variable [Seeded ρ] [World ω]

/-- Behind a load the rules that it registers stand on top of those before. -/
theorem rules_load (session : Session ρ ω) (job : Load.Job) :
    (session.act (.load job)).2.engine.rules =
      session.engine.rules.registered (job.registrations session.registry) := by
  have history := history_act session (.load job)
  rw [events_load] at history
  exact history.eq_registered

/-- A load has the outcome of registering the rules of its plan, if it has one. -/
theorem result_load (session : Session ρ ω) (job : Load.Job) :
    (session.act (.load job)).1.result =
      match job.plan >>= fun plan => (Load.registerRules session.registry plan.rules).1 with
      | .ok () => .ok .done
      | .error error => .error (.load error) := by
  have recorded := congrArg Prod.fst (Load.trace_run (fun _ => false) session.registry job)
  have outcome : ((Load.run session.registry job : Load (Engine ρ ω) Unit)
      ⟨session.engine, []⟩).1 =
        job.plan >>= fun plan => (Load.registerRules session.registry plan.rules).1 := by
    refine (Load.outcome_eq session.registry job _ _).trans (recorded.trans ?_)
    cases job.plan <;> rfl
  simp only [act, load]
  rw [← outcome]
  rcases (Load.run session.registry job : Load (Engine ρ ω) Unit) ⟨session.engine, []⟩
    with ⟨_ | _, loading⟩ <;> rfl

/-! ### What binds a name -/

/-- The rules that a generation resolves. -/
def resolutions (session : Session ρ ω) (text : String) (preserve : Bool) :
    List (Resolution ρ ω) :=
  Expansion.resolutions text preserve ⟨session.engine, session.world, []⟩

/-- The action binds a name to a handler and parameters: directly, or by loading a function rule
that is the last one loaded under this name. The handler is then that of the function at this
moment, and without parameters they are empty. -/
inductive Stage.Binds (stage : Stage ρ ω) (name : String) :
    Handler ω → Fields → Prop where
  | directly {handler : Handler ω} {parameters : Fields}
      (is : stage.action = .register name (.function handler parameters)) :
      Binds stage name handler parameters
  | loaded {job : Load.Job} {plan : Plan} {function : String} {given : Option Fields}
      {before behind : List (Except LoadError (String × RuleConfig))} {definition : Definition ω}
      (is : stage.action = .load job) (planned : job.plan = .ok plan)
      (rules : plan.rules = before ++ .ok (name, .function function given) :: behind)
      (whole : (Load.registerRules stage.session.registry before).1 = .ok ())
      (found : stage.session.registry.get? function = some definition)
      (last : ∀ entry ∈ (Load.registerRules stage.session.registry behind).2, entry.1 ≠ name) :
      Binds stage name definition.handler (given.getD [])

/-- The action registers something under the name. -/
def Stage.Registers (stage : Stage ρ ω) (name : String) : Prop :=
  ∃ registration, .registered name registration ∈ stage.events

omit [Seeded ρ] [World ω] in
theorem Stage.binds_of_lastRegistered {stage : Stage ρ ω} {name : String} {handler : Handler ω}
    {parameters : Fields}
    (last : LastRegistered name (.function handler parameters) stage.events) :
    stage.Binds name handler parameters := by
  obtain ⟨session, action⟩ := stage
  obtain ⟨before, after, split, spares⟩ := last
  change session.events action = _ at split
  have member : .registered name (.function handler parameters) ∈ session.events action := by
    rw [split]
    simp
  cases action with
  | load job =>
    rw [events_load] at split
    obtain ⟨earlier, others, regs, rfl, rest⟩ := List.map_eq_append_iff.mp split
    obtain ⟨entry, later, rfl, same, rfl⟩ := List.map_eq_cons_iff.mp rest
    obtain ⟨rfl, is⟩ := Event.registered.inj same
    rw [Load.Job.registrations] at regs
    cases planned : job.plan with
    | error error =>
      rw [planned] at regs
      exact absurd regs.symm (List.append_ne_nil_of_right_ne_nil _ (List.cons_ne_nil _ _))
    | ok plan =>
      rw [planned] at regs
      obtain ⟨loaded, config, behind, rules, whole, registered, left⟩ :=
        Load.registerRules_split regs
      rw [is] at registered
      obtain ⟨function, given, definition, rfl, found, rfl, rfl⟩ :=
        Load.registered_eq_function registered
      refine .loaded rfl planned rules (by rw [whole]) found fun other member same => ?_
      rw [left] at member
      exact spares _ (List.mem_map_of_mem member) other.2 (by rw [same])
  | register other registration =>
    cases List.mem_singleton.mp member
    exact .directly rfl
  | generate text preserve =>
    obtain ⟨other, given, is⟩ := Expansion.resolved_of_mem_journal _ member
    cases is
  | remove | resetCursors | clear => cases List.mem_singleton.mp member
  | _ => cases member

/-- A function rule of an engine that had no rules is what an action of the run bound last. -/
theorem bound_of_hasRule {session : Session ρ ω} (fresh : session.engine.rules = .empty)
    {actions : List (Action ω)} {name : String} {handler : Handler ω} {parameters : Fields}
    (has : (session.run actions).engine.rules.HasRule name (.function handler parameters)) :
    ∃ before stage after, session.stages actions = before ++ stage :: after ∧
      stage.Binds name handler parameters ∧ ∀ later ∈ after, ¬ later.Registers name := by
  rcases origin_run has with
    ⟨had, -⟩ | ⟨before, stage, after, registration, split, last, is, spared⟩
  · rw [fresh] at had
    cases had
  · have function : registration = .function handler parameters := by
      cases registration <;> cases is
      rfl
    refine ⟨before, stage, after, split, stage.binds_of_lastRegistered (function ▸ last), ?_⟩
    rintro later member ⟨other, registered⟩
    exact spared later member _ registered other rfl

section

variable {session : Session ρ ω} {job : Load.Job} {plan : Plan} {name function : String}
  {given : Option Fields} {before behind : List (Except LoadError (String × RuleConfig))}
  (planned : job.plan = .ok plan)
  (rules : plan.rules = before ++ .ok (name, .function function given) :: behind)
  (whole : (Load.registerRules session.registry before).1 = .ok ())

include planned rules whole

omit [Seeded ρ] [World ω] in
theorem registered_of_present {definition : Definition ω}
    (found : session.registry.get? function = some definition) :
    .registered name (.function definition.handler (given.getD [])) ∈
      session.events (.load job) := by
  have is : Load.registered session.registry name (.function function given) =
      .ok (.function definition.handler (given.getD [])) := by
    rw [Load.registered_function, found]
  rw [events_load, Load.Job.registrations, planned]
  simp only [rules, Load.registerRules_of_ok whole is]
  simp

theorem refused_of_missing (missing : session.registry.get? function = none) :
    (session.act (.load job)).1.result = .error (.load (.unknownFunction function)) ∧
      (session.act (.load job)).2.engine.rules =
        session.engine.rules.registered (Load.registerRules session.registry before).2 := by
  have failed : Load.registered (ω := ω) session.registry name (.function function given) =
      .error (.unknownFunction function) := by
    rw [Load.registered_function, missing]
  have effect := Load.registerRules_of_error whole failed behind
  rw [← rules] at effect
  have stopped : (job.plan >>= fun plan => (Load.registerRules session.registry plan.rules).1) =
      .error (.unknownFunction function) := by
    rw [planned]
    exact congrArg Prod.fst effect
  rw [result_load, stopped, rules_load, Load.Job.registrations, planned]
  exact ⟨rfl, by simp only [effect]⟩

end

/-- Behind any run of a session that begins without rules, a generation is a sequence of
resolutions. Each one of a function rule calls the handler with the parameters that an action of the
run bound its name to, and no later action registers anything under the name. A load then sees the
functions as they are now: if all rules before a function rule can be registered, it is registered
with the present handler of its function. If there is none, the load fails with an error that says
so, the rules before stay registered, and an earlier rule of the name stays in force. -/
theorem function_rules_stay_bound {session : Session ρ ω} (fresh : session.engine.rules = .empty)
    (actions : List (Action ω)) :
    (∀ text preserve,
      Expansion.Passes preserve ((session.run actions).resolutions text preserve)
        (Expansion.prepared preserve
          ⟨(session.run actions).engine, (session.run actions).world, []⟩)
        (TextGrammar.generate text preserve
          ⟨(session.run actions).engine, (session.run actions).world, []⟩).2 ∧
      ∀ entry ∈ (session.run actions).resolutions text preserve,
        ∀ handler parameters, entry.rule = .function handler parameters →
          (Expansion.resolve entry.name entry.rule entry.run).2.world =
            (handler parameters entry.run.world).2 ∧
          ∃ before stage after, session.stages actions = before ++ stage :: after ∧
            stage.Binds entry.name handler parameters ∧
            ∀ later ∈ after, ¬ later.Registers entry.name) ∧
    ∀ job plan before name function given behind, job.plan = .ok plan →
      plan.rules = before ++ .ok (name, .function function given) :: behind →
      (Load.registerRules (session.run actions).registry before).1 = .ok () →
        (∀ definition, (session.run actions).registry.get? function = some definition →
          .registered name (.function definition.handler (given.getD [])) ∈
            (session.run actions).events (.load job)) ∧
        ((session.run actions).registry.get? function = none →
          ((session.run actions).act (.load job)).1.result =
            .error (.load (.unknownFunction function)) ∧
          ((session.run actions).act (.load job)).2.engine.rules =
            (session.run actions).engine.rules.registered
              (Load.registerRules (session.run actions).registry before).2 ∧
          ((∀ config, .ok (name, config) ∉ before) →
            ((session.run actions).act (.load job)).2.engine.rules.get? name =
              (session.run actions).engine.rules.get? name)) := by
  constructor
  · intro text preserve
    refine ⟨Expansion.passes_resolutions text preserve _, ?_⟩
    intro entry member handler parameters is
    have has := Expansion.hasRule_of_resolution member
    rw [is] at has ⊢
    exact ⟨(Expansion.resolve_function entry.name handler parameters entry.run).1,
      bound_of_hasRule fresh has⟩
  · intro job plan before name function given behind planned rules whole
    refine ⟨fun definition found => registered_of_present planned rules whole found,
      fun missing => ?_⟩
    obtain ⟨refused, left⟩ := refused_of_missing planned rules whole missing
    refine ⟨refused, left, fun different => ?_⟩
    refine (congrArg (Table.get? · name) left).trans (Table.get?_registered ?_)
    intro entry member
    obtain ⟨config, stands, -⟩ := Load.exists_of_mem_registerRules member
    rintro rfl
    exact different config stands

/-! ### A function that is replaced -/

/-- A handler that always gives the same text. -/
def always (text : String) : Handler Script := fun _ => return .list [.str text]

/-- A function rule without parameters. -/
def callOf (function : String) : Value :=
  .map [(.str "type", .str "function"), (.str "functionName", .str function)]

/-- A function, a rule that names it, and another function of the same name. -/
def replacement : List (Action Script) :=
  [.define ⟨"greet", "", always "hello"⟩, .load (.rule "greeting" (callOf "greet")),
    .define ⟨"greet", "", always "goodbye"⟩]

theorem replacement_leaves_bound :
    idle.engine.rules = .empty ∧
    (∃ entry ∈ (idle.run replacement).resolutions "%greeting%" false,
      entry.rule = .function (always "hello") [] ∧
      ∃ before stage after, idle.stages replacement = before ++ stage :: after ∧
        stage.Binds entry.name (always "hello") [] ∧
        ∀ later ∈ after, ¬ later.Registers entry.name) ∧
    .registered "farewell" (.function (always "goodbye") []) ∈
      (idle.run replacement).events (.load (.rule "farewell" (callOf "greet"))) ∧
    ((idle.run replacement).act (.load (.rule "greeting" (callOf "absent")))).1.result =
      .error (.load (.unknownFunction "absent")) ∧
    ((idle.run replacement).act (.load (.rule "greeting" (callOf "absent")))).2.engine.rules.get?
      "greeting" = (idle.run replacement).engine.rules.get? "greeting" := by
  obtain ⟨bound, loads⟩ := @function_rules_stay_bound _ _ _ _ _ idle rfl replacement
  have resolved : ((idle.run replacement).resolutions "%greeting%" false).map Resolution.rule =
      [.function (always "hello") []] := by cbv
  obtain ⟨entry, member, is⟩ := List.mem_map.mp (resolved ▸ List.mem_singleton_self _)
  have present : (idle.run replacement).registry.get? "greet" =
      some ⟨"greet", "", always "goodbye"⟩ := by cbv
  have absent : (idle.run replacement).registry.get? "absent" = none := by cbv
  obtain ⟨refused, -, kept⟩ := (loads (.rule "greeting" (callOf "absent")) _ [] "greeting" "absent"
    none [] rfl rfl rfl).2 absent
  exact ⟨rfl, ⟨entry, member, is, ((bound _ _).2 entry member _ _ is).2⟩,
    (loads _ _ [] "farewell" "greet" none [] rfl rfl rfl).1 _ present, refused,
    kept fun _ => List.not_mem_nil⟩

end Session

end TextGrammar
