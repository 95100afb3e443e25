import TextGrammar.Condition.Grammar
import TextGrammar.Condition.Lexeme

/-!
Reading conditions: from a text to a tree, or to the problem that stands first in the text.
-/

namespace TextGrammar.Condition

/-- Why a text is no condition: a problem at a position, or digits that denote no number. -/
inductive ReadError where
  | misread (misread : Misread)
  | fault (fault : Fault)
deriving DecidableEq, Repr

/-- The lexemes of a text. -/
def scan (text : String) : Except ReadError (List Lexeme) :=
  match lexemes text.toList with
  | .ok found => .ok found
  | .error (.problem problem, position) => .error (.misread ⟨problem, position⟩)
  | .error (.fault reason, _) => .error (.fault reason)

/-- The position of the item with as many items behind it, itself included; the end of the text is
the last item. -/
def positionBefore (lexemes : List Lexeme) (finish remaining : Nat) : Nat :=
  match lexemes.drop (lexemes.length + 1 - remaining) with
  | lexeme :: _ => lexeme.start
  | [] => finish

/-- The condition that a text denotes. -/
def read (text : String) : Except ReadError Tree := do
  let found ← scan text
  match Tree.ofTokens (found.map Lexeme.token) with
  | .ok tree => return tree
  | .error (.problem problem rest) =>
    throw (.misread ⟨problem, positionBefore found text.length rest.length⟩)
  | .error .beyond => throw (.fault .outside)

end TextGrammar.Condition
