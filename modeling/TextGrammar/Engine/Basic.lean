import TextGrammar.Engine.Request
import TextGrammar.Modifier.Basic
import TextGrammar.Random.Draws

/-!
Engines: the rules, the modifiers, the context of earlier results and the settings that texts are
generated with.
-/

namespace TextGrammar

/-- The state of an engine with a generator of type `ρ` and handlers that share a world of type
`ω`. -/
structure Engine (ρ ω : Type) where
  rules : Table (Rule ω)
  modifiers : Table Modifier
  context : Table String
  maxDepth : Int
  seed : Option Int
  generator : ρ

namespace Engine

variable {ρ ω : Type}

/-- The depth limit of an engine that is not told otherwise. -/
def defaultMaxDepth : Int := 100

/-- An engine without rules. Without a seed its generator is the one of seed zero. -/
def new [Seeded ρ] (maxDepth : Int := defaultMaxDepth) (seed : Option Int := none) :
    Engine ρ ω :=
  ⟨.empty, .empty, .empty, maxDepth, seed, Seeded.ofSeed (seed.getD 0)⟩

/-! ### Rules -/

/-- Puts a rule under a name; an earlier one is replaced in its place. -/
def putRule (engine : Engine ρ ω) (name : String) (rule : Rule ω) : Engine ρ ω :=
  { engine with rules := engine.rules.put name rule }

/-- The note about a rule that replaces another one. -/
def replacementNotes (engine : Engine ρ ω) (name : String) (rule : Rule ω) : List Note :=
  if engine.rules.contains name then
    [⟨.debug, .engine, s!"Replacing rule {Text.quoted name} with {rule.formName}"⟩]
  else []

def hasRule (engine : Engine ρ ω) (name : String) : Bool := engine.rules.contains name

def removeRule (engine : Engine ρ ω) (name : String) : Engine ρ ω :=
  { engine with rules := engine.rules.erase name }

/-- Every sequential rule starts again with its first value. -/
def resetCursors (engine : Engine ρ ω) : Engine ρ ω :=
  { engine with
    rules := ⟨engine.rules.entries.map fun (name, rule) => (name, rule.reset)⟩ }

/-- Removes the rules and the context; settings and modifiers stay. -/
def clear (engine : Engine ρ ω) : Engine ρ ω :=
  { engine with rules := .empty, context := .empty }

/-! ### Settings -/

/-- Sets the depth limit, which has to be positive. -/
def setMaxDepth (engine : Engine ρ ω) (depth : Int) : Except Failure (Engine ρ ω) :=
  if depth < 1 then .error .limitNotPositive else .ok { engine with maxDepth := depth }

/-- Sets the seed and starts the generator anew from it. -/
def setSeed [Seeded ρ] (engine : Engine ρ ω) (seed : Int) : Engine ρ ω :=
  { engine with seed := some seed, generator := Seeded.ofSeed seed }

/-- Forgets the seed; what the generator gives from then on is not determined by it. -/
def clearSeed (engine : Engine ρ ω) : Engine ρ ω := { engine with seed := none }

/-! ### Context -/

/-- Replaces the context; keys and values become texts. -/
def setContext (engine : Engine ρ ω) (fields : Fields) : Except Fault (Engine ρ ω) := do
  let entries ← fields.mapM fun (key, value) => do return (← key.text, ← value.text)
  return { engine with context := .ofList entries }

def clearContext (engine : Engine ρ ω) : Engine ρ ω := { engine with context := .empty }

/-- Writes down what a rule gave. -/
def record (engine : Engine ρ ω) (name value : String) : Engine ρ ω :=
  { engine with context := engine.context.put name value }

/-! ### Modifiers -/

def addModifier (engine : Engine ρ ω) (name : String) (modifier : Modifier) : Engine ρ ω :=
  { engine with modifiers := engine.modifiers.put name modifier }

/-- Adds a modifier that documents may name, if there is one of this name. -/
def loadModifier (engine : Engine ρ ω) (name : String) : Bool × Engine ρ ω :=
  match Modifier.ofName? name with
  | some modifier => (true, engine.addModifier name modifier)
  | none => (false, engine)

def clearModifiers (engine : Engine ρ ω) : Engine ρ ω := { engine with modifiers := .empty }

/-! ### Requests -/

/-- Performs a request. A depth limit that is not positive is left out. -/
def perform [Seeded ρ] (request : Request ω) (engine : Engine ρ ω) : Reply × Engine ρ ω :=
  match request with
  | .register name registration =>
    (⟨true, engine.replacementNotes name registration.rule⟩,
      engine.putRule name registration.rule)
  | .setMaxDepth depth =>
    match engine.setMaxDepth depth with
    | .ok changed => (⟨true, []⟩, changed)
    | .error _ => (⟨false, []⟩, engine)
  | .setSeed seed => (⟨true, []⟩, engine.setSeed seed)
  | .loadModifier name =>
    let (accepted, changed) := engine.loadModifier name
    (⟨accepted, []⟩, changed)

instance [Seeded ρ] : Performs (Engine ρ ω) ω := ⟨perform⟩

end Engine

end TextGrammar
