import TextGrammar.Engine.Expansion
import TextGrammar.Function.Builtin
import TextGrammar.Loading

/-!
Sessions: an engine together with the functions that its rules may name and the world of their
handlers. Whatever can happen to a session is an action, so that a run is a list of actions.
-/

namespace TextGrammar

/-- An engine, the registered functions, and the world that their handlers share. -/
structure Session (ρ ω : Type) where
  engine : Engine ρ ω
  registry : Registry ω
  world : ω

/-- What can happen to a session. -/
inductive Action (ω : Type) where
  | load (job : Load.Job)
  | define (definition : Definition ω)
  | undefine (name : String)
  | clearFunctions (keepBuiltins : Bool)
  | register (name : String) (registration : Registration ω)
  | remove (name : String)
  | resetCursors
  | clear
  | setMaxDepth (depth : Int)
  | setSeed (seed : Int)
  | clearSeed
  | setContext (fields : Fields)
  | clearContext
  | addModifier (name : String) (modifier : Modifier)
  | loadModifier (name : String)
  | clearModifiers
  | generate (text : String) (preserve : Bool)

/-- What an action gives: nothing, whether something was there, or a text. -/
inductive Answer where
  | done
  | found (present : Bool)
  | text (text : String)
deriving DecidableEq, Repr

/-- Why an action fails. -/
inductive Refusal where
  | load (error : LoadError)
  | engine (failure : Failure)

/-- The result of an action, with the notes that were made. -/
structure Outcome where
  result : Except Refusal Answer
  notes : List Note

/-- The outcome of an action that cannot fail and makes no notes. -/
def Outcome.plain (answer : Answer) : Outcome := ⟨.ok answer, []⟩

namespace Session

variable {ρ ω : Type}

/-- A session with an engine and the functions that every registry begins with. -/
def new [World ω] (engine : Engine ρ ω) (world : ω) : Session ρ ω :=
  ⟨engine, Builtin.registry, world⟩

/-- Loads a job into the engine. -/
def load [Seeded ρ] (job : Load.Job) (session : Session ρ ω) : Outcome × Session ρ ω :=
  let step : Load (Engine ρ ω) Unit := Load.run session.registry job
  let (result, loading) := step ⟨session.engine, []⟩
  let result := match result with
    | .ok () => .ok .done
    | .error error => .error (.load error)
  (⟨result, loading.notes⟩, { session with engine := loading.engine })

/-- Generates a text. -/
def generate [Draws ρ] (text : String) (preserve : Bool) (session : Session ρ ω) :
    Outcome × Session ρ ω :=
  let step : Expansion ρ ω String := TextGrammar.generate text preserve
  let (result, run) := step ⟨session.engine, session.world, []⟩
  let result := match result with
    | .ok text => .ok (.text text)
    | .error failure => .error (.engine failure)
  (⟨result, run.notes⟩, { session with engine := run.engine, world := run.world })

/-- Changes the engine in a way that cannot fail. -/
def change (session : Session ρ ω) (engine : Engine ρ ω) : Outcome × Session ρ ω :=
  (.plain .done, { session with engine })

/-- Does an action. -/
def act [Draws ρ] [Seeded ρ] [World ω] (session : Session ρ ω) :
    Action ω → Outcome × Session ρ ω
  | .load job => session.load job
  | .define definition =>
    (.plain .done, { session with registry := session.registry.register definition })
  | .undefine name =>
    (.plain (.found (session.registry.contains name)),
      { session with registry := session.registry.erase name })
  | .clearFunctions keepBuiltins =>
    (.plain .done, { session with registry := Builtin.cleared keepBuiltins })
  | .register name registration =>
    let (reply, engine) := session.engine.perform (.register name registration)
    (⟨.ok .done, reply.notes⟩, { session with engine })
  | .remove name =>
    (.plain (.found (session.engine.hasRule name)),
      { session with engine := session.engine.removeRule name })
  | .resetCursors => session.change session.engine.resetCursors
  | .clear => session.change session.engine.clear
  | .setMaxDepth depth =>
    match session.engine.setMaxDepth depth with
    | .ok engine => session.change engine
    | .error failure => (⟨.error (.engine failure), []⟩, session)
  | .setSeed seed => session.change (session.engine.setSeed seed)
  | .clearSeed => session.change session.engine.clearSeed
  | .setContext fields =>
    match session.engine.setContext fields with
    | .ok engine => session.change engine
    | .error reason => (⟨.error (.engine (.fault reason)), []⟩, session)
  | .clearContext => session.change session.engine.clearContext
  | .addModifier name modifier => session.change (session.engine.addModifier name modifier)
  | .loadModifier name =>
    let (known, engine) := session.engine.loadModifier name
    (.plain (.found known), { session with engine })
  | .clearModifiers => session.change session.engine.clearModifiers
  | .generate text preserve => session.generate text preserve

/-- The session after a list of actions, whatever becomes of each. -/
def run [Draws ρ] [Seeded ρ] [World ω] (session : Session ρ ω) (actions : List (Action ω)) :
    Session ρ ω :=
  actions.foldl (fun session action => (session.act action).2) session

end Session

end TextGrammar
