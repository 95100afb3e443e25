import TextGrammar.Failure
import TextGrammar.Value.Basic

/-!
Handlers: what function rules call.
-/

namespace TextGrammar

/-- From parameters to a value, reading and changing the world that all handlers share. -/
abbrev Handler (ω : Type) := Fields → ExceptT Failure (StateM ω) Value

end TextGrammar
