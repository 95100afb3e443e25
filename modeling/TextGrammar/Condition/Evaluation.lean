import TextGrammar.Condition.Comparison
import TextGrammar.Condition.Tree

/-!
The value of a condition in a context. Connectives stop at the operand that decides them.
-/

namespace TextGrammar.Condition

/-- A value that counts as true; `nan` does not. -/
def isTrue : Value → Bool
  | .scalar (.number value) => !value.isNaN && !value.isZero
  | value => value.truthy

namespace Tree

mutual

/-- The value of a condition in a context, which is a map if the condition looks up a key. -/
def evaluate (context : Value) : Tree → Except Fault Value
  | literal value => .ok (.scalar value)
  | lookup key => context.lookup key
  | compare operator left right => do
    let x ← left.evaluate context
    let y ← right.evaluate context
    return .bool (← operator.holds x y)
  | all operands => do return .bool (← holdAll context operands)
  | any operands => do return .bool (← holdAny context operands)
  | not operand => do return .bool (!isTrue (← operand.evaluate context))

/-- All operands hold. -/
def holdAll (context : Value) : List Tree → Except Fault Bool
  | [] => .ok true
  | operand :: rest => do
    if isTrue (← operand.evaluate context) then holdAll context rest else return false

/-- Some operand holds. -/
def holdAny (context : Value) : List Tree → Except Fault Bool
  | [] => .ok false
  | operand :: rest => do
    if isTrue (← operand.evaluate context) then return true else holdAny context rest

end

end Tree

end TextGrammar.Condition
