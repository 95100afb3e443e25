import TextGrammar.Fault

/-!
Problems of documents: why a text cannot be read in a notation that has only one message for all
of its errors.
-/

namespace TextGrammar

/-- A text that does not follow its notation, or a numeral that denotes no number. -/
inductive DocumentProblem where
  | malformed
  | fault (fault : Fault)
deriving DecidableEq, Repr

/-- The outcome, malformed if there is none. -/
def DocumentProblem.require {α : Type} : Option α → Except DocumentProblem α
  | some found => .ok found
  | none => .error .malformed

end TextGrammar
