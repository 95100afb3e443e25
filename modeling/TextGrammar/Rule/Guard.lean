import TextGrammar.Condition.Predicate
import TextGrammar.Failure
import TextGrammar.Table

/-!
Guards: what decides on a branch of a conditional rule. A guard is any test of the context, which
may fail; a compiled condition is one that never does.
-/

namespace TextGrammar

/-- What decides on a branch: a compiled condition, or any other test of the context. -/
inductive Guard where
  | condition (predicate : Predicate)
  | test (ask : Table String → Except Failure Bool)

namespace Guard

/-- A context as the value that conditions look into. -/
def contextValue (context : Table String) : Value :=
  .map (context.entries.map fun (key, value) => (.str key, .str value))

/-- The answer of a guard in a context. -/
def answer (context : Table String) : Guard → Except Failure Bool
  | condition predicate => .ok (predicate.holds (contextValue context))
  | test ask => ask context

/-- The notes that a guard makes in a context: a condition that cannot be evaluated makes one. -/
def notes (context : Table String) : Guard → List Note
  | condition predicate => predicate.failureNotes (contextValue context)
  | test _ => []

end Guard

end TextGrammar
