import TextGrammar.Function.Handler
import TextGrammar.Table

/-!
Registries: functions by name, in the order in which the names were first registered.
-/

namespace TextGrammar

/-- A function that rules may name. -/
structure Definition (ω : Type) where
  name : String
  description : String
  handler : Handler ω

/-- The functions by their names. -/
abbrev Registry (ω : Type) := Table (Definition ω)

namespace Registry

variable {ω : Type}

/-- Registers a function; an earlier one of the same name is replaced in its place. -/
def register (registry : Registry ω) (definition : Definition ω) : Registry ω :=
  registry.put definition.name definition

def registerAll (registry : Registry ω) (definitions : List (Definition ω)) : Registry ω :=
  definitions.foldl register registry

/-- The functions, in the order of their names. -/
def definitions (registry : Registry ω) : List (Definition ω) := registry.entries.map Prod.snd

end Registry

end TextGrammar
