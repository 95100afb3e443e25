import TextGrammar.Note
import TextGrammar.Rule.Basic

/-!
Requests: what loading asks of an engine, as data. Any engine that performs requests can be
loaded.
-/

namespace TextGrammar

/-- A rule as it is handed to an engine. -/
inductive Registration (ω : Type) where
  | static (values : List Value)
  | function (handler : Handler ω) (parameters : Fields)
  | weighted (values weights : List Value)
  | conditional (branches : List Branch)
  | sequential (values : List Value) (cycle : Bool)
  | range (min max step numberType : Value)
  | template (text : String) (bindings : Table (List Value))

/-- The rule of an engine, a sequential one at its first value. A range is one of real numbers only
if its type says so. -/
def Registration.rule {ω : Type} : Registration ω → Rule ω
  | static values => .static values
  | function handler parameters => .function handler parameters
  | weighted values weights => .weighted values weights
  | conditional branches => .conditional branches
  | sequential values cycle => .sequential values cycle 0
  | range min max step numberType => .range ⟨min, max, step, numberType.equal (.str "float")⟩
  | template text bindings => .template text bindings

/-- What loading asks of an engine. -/
inductive Request (ω : Type) where
  | register (name : String) (registration : Registration ω)
  | setMaxDepth (depth : Int)
  | setSeed (seed : Int)
  | loadModifier (name : String)

/-- The answer of an engine: whether it knows what was asked for, and its notes. -/
structure Reply where
  accepted : Bool
  notes : List Note

/-- Engines that perform requests. -/
class Performs (ε : Type) (ω : outParam Type) where
  perform : Request ω → ε → Reply × ε

/-- An engine that only writes down what it is asked for, in order. -/
structure Recorder (ω : Type) where
  knows : String → Bool
  requests : List (Request ω)

/-- A recorder knows some modifiers and performs nothing. -/
def Recorder.perform {ω : Type} (request : Request ω) (recorder : Recorder ω) :
    Reply × Recorder ω :=
  let accepted := match request with
    | .loadModifier name => recorder.knows name
    | _ => true
  (⟨accepted, []⟩, { recorder with requests := recorder.requests ++ [request] })

instance {ω : Type} : Performs (Recorder ω) ω := ⟨Recorder.perform⟩

end TextGrammar
