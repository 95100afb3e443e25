import TextGrammar.Proofs.Loading.Seeds

/-!
Loading the same thing again. What requests make of an engine is given by the rules and the
modifiers that they put and by the last depth limit and the last seed that they set, so performing
them once more changes nothing. Main statement: a second load of a job has the outcome of the first
one, be it an error, and leaves the session as the first one left it.
-/

namespace TextGrammar

variable {ρ ω : Type}

/-! ### What a request changes -/

namespace Request

/-- The rule that a request puts, under its name. -/
def rule? : Request ω → Option (String × Rule ω)
  | .register name registration => some (name, registration.rule)
  | _ => none

/-- The modifier that a request puts, under its name, if there is one of this name. -/
def modifier? : Request ω → Option (String × Modifier)
  | .loadModifier name => (Modifier.ofName? name).map fun modifier => (name, modifier)
  | _ => none

/-- The depth limit that a request sets, which has to be positive. -/
def maxDepth? : Request ω → Option Int
  | .setMaxDepth depth => if depth < 1 then none else some depth
  | _ => none

/-- The seed that a request sets. -/
def seed? : Request ω → Option Int
  | .setSeed seed => some seed
  | _ => none

end Request

namespace Engine

variable [Seeded ρ]

/-- The engine with all the rules, modifiers, depth limits and seeds of requests. -/
def changedBy (engine : Engine ρ ω) (requests : List (Request ω)) : Engine ρ ω :=
  let seeds := requests.filterMap Request.seed?
  { rules := engine.rules.putAll (requests.filterMap Request.rule?)
    modifiers := engine.modifiers.putAll (requests.filterMap Request.modifier?)
    context := engine.context
    maxDepth := (requests.filterMap Request.maxDepth?).getLastD engine.maxDepth
    seed := (seeds.map some).getLastD engine.seed
    generator := (seeds.map Seeded.ofSeed).getLastD engine.generator }

theorem changedBy_cons (engine : Engine ρ ω) (request : Request ω) (rest : List (Request ω)) :
    engine.changedBy (request :: rest) = (engine.perform request).2.changedBy rest := by
  cases request with
  | register name registration => rfl
  | setSeed seed =>
    simp only [changedBy, List.filterMap_cons, Request.seed?, List.map_cons, List.getLastD_cons]
    rfl
  | setMaxDepth depth =>
    by_cases small : depth < 1
    · simp only [changedBy, List.filterMap_cons, Request.maxDepth?, perform, setMaxDepth,
        if_pos small]
      rfl
    · simp only [changedBy, List.filterMap_cons, Request.maxDepth?, perform, setMaxDepth,
        if_neg small, List.getLastD_cons]
      rfl
  | loadModifier name =>
    simp only [changedBy, List.filterMap_cons, Request.modifier?, perform, loadModifier]
    cases Modifier.ofName? name <;> rfl

/-- Performing requests one after the other puts what they put and sets what they set last. -/
theorem performAll_eq_changedBy (engine : Engine ρ ω) (requests : List (Request ω)) :
    engine.performAll requests = engine.changedBy requests := by
  induction requests generalizing engine with
  | nil => rfl
  | cons request rest ih => exact (ih _).trans (changedBy_cons engine request rest).symm

/-- Performing the same requests once more changes nothing. -/
theorem performAll_performAll (engine : Engine ρ ω) (requests : List (Request ω)) :
    (engine.performAll requests).performAll requests = engine.performAll requests := by
  have last {α : Type} (values : List α) (start : α) :
      values.getLastD (values.getLastD start) = values.getLastD start := by
    cases values with
    | nil => rfl
    | cons value rest => simp only [List.getLastD_cons]
  simp only [performAll_eq_changedBy, changedBy, Table.putAll_putAll, last]

end Engine

/-! ### Loading twice -/

namespace Session

variable [Draws ρ] [Seeded ρ] [World ω]

/-- Loading something a second time right after the first has the same outcome, a return or the same
error, and leaves the session as it is: rules with their places and cursors, modifiers, context,
depth limit, seed and generator. -/
theorem load_again (session : Session ρ ω) (job : Load.Job) :
    let first := session.act (.load job)
    let second := first.2.act (.load job)
    second.1.result = first.1.result ∧ second.2 = first.2 := by
  intro first second
  have registry : first.2.registry = session.registry := rfl
  have engine : second.2.engine = first.2.engine := by
    rw [engine_load, engine_load, registry]
    cases job.plan with
    | error error => rfl
    | ok plan => exact session.engine.performAll_performAll _
  constructor
  · rw [result_load, result_load, registry]
  · exact congrArg (fun engine => { first.2 with engine }) engine

end Session

end TextGrammar
