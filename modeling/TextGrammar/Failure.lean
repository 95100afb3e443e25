import TextGrammar.Fault
import TextGrammar.Text.Quoted

/-!
Failures of an engine: why generating a text stops.
-/

namespace TextGrammar

/-- Why generating stops: a value that cannot be used as a rule asks, a rule that is nested too
deeply, a depth limit that is not positive, or a handler that refuses. -/
inductive Failure where
  | fault (fault : Fault)
  | tooDeep (limit : Int) (rule : String)
  | limitNotPositive
  | refused (message : String)
deriving DecidableEq, Repr

/-- The wording of a failure; faults have none. -/
def Failure.message? : Failure → Option String
  | fault _ => none
  | tooDeep limit rule =>
    some s!"Maximum recursion depth of {limit} exceeded while expanding {Text.quoted rule}"
  | limitNotPositive => some "max depth must be a positive integer"
  | refused message => some message

end TextGrammar
