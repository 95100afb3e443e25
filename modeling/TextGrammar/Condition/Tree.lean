import TextGrammar.Condition.Token
import TextGrammar.Value.Basic

/-!
Condition trees.
-/

namespace TextGrammar.Condition

/-- A condition: a literal, the value under a key of the context, a comparison, a conjunction, a
disjunction, or a negation. -/
inductive Tree where
  | literal (value : Scalar)
  | lookup (key : String)
  | compare (operator : Operator) (left right : Tree)
  | all (operands : List Tree)
  | any (operands : List Tree)
  | not (operand : Tree)
deriving Repr

namespace Tree

/-- A conjunction; a single operand stands for itself. -/
def conjunction : Tree → List Tree → Tree
  | operand, [] => operand
  | operand, more => all (operand :: more)

/-- A disjunction; a single operand stands for itself. -/
def disjunction : Tree → List Tree → Tree
  | operand, [] => operand
  | operand, more => any (operand :: more)

mutual

/-- The keys that a condition looks up, from left to right, with repetitions. -/
def lookups : Tree → List String
  | literal _ => []
  | lookup key => [key]
  | compare _ left right => left.lookups ++ right.lookups
  | all operands => lookupsOfAll operands
  | any operands => lookupsOfAll operands
  | not operand => operand.lookups

/-- The keys that several conditions look up. -/
def lookupsOfAll : List Tree → List String
  | [] => []
  | operand :: rest => operand.lookups ++ lookupsOfAll rest

end

/-- Adds a key behind others unless it is among them. -/
def addKey (keys : List String) (key : String) : List String :=
  if key ∈ keys then keys else keys ++ [key]

/-- The keys that a condition depends on, each once, in the order of their first use. -/
def keys (tree : Tree) : List String := tree.lookups.foldl addKey []

end Tree

end TextGrammar.Condition
