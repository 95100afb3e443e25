import TextGrammar.Function.Handler
import TextGrammar.Rule.Guard
import TextGrammar.Rule.Range
import TextGrammar.Rule.Slot

/-!
Rules of an engine, and the texts that they may refer to other rules with.
-/

namespace TextGrammar

/-- A branch of a conditional rule: the values that its guard, if it has one, chooses, and the
values it offers when no guard holds. -/
structure Branch where
  guard : Option Guard
  values : List Value
  fallback : Option (List Value)

/-- A rule, with the cursor of a sequential one. -/
inductive Rule (ω : Type) where
  | static (values : List Value)
  | function (handler : Handler ω) (parameters : Fields)
  | weighted (values weights : List Value)
  | conditional (branches : List Branch)
  | sequential (values : List Value) (cycle : Bool) (cursor : Int)
  | range (range : Range)
  | template (text : String) (bindings : Table (List Value))

namespace Branch

/-- The answer of the guard in a context; a branch without one is not chosen by it. -/
def answer (context : Table String) (branch : Branch) : Except Failure Bool :=
  match branch.guard with
  | some guard => guard.answer context
  | none => .ok false

/-- A branch without a guard that offers values. -/
def isDefault (branch : Branch) : Bool := branch.guard.isNone && branch.fallback.isSome

end Branch

namespace Rule

variable {ω : Type}

/-- The values of the first default branch, none if there is no such branch. -/
def fallback (branches : List Branch) : List Value :=
  match branches.find? Branch.isDefault with
  | some branch => branch.fallback.getD []
  | none => []

/-- The values of the first branch whose guard holds, otherwise those of the first default one. A
guard that fails before ends the search. -/
def chosen (context : Table String) (branches : List Branch) : Except Failure (List Value) := do
  match ← branches.findM? (Branch.answer context) with
  | some branch => return branch.values
  | none => return fallback branches

/-- The value at the cursor; a negative cursor counts from the end. -/
def valueAt? (values : List Value) (cursor : Int) : Option Value :=
  let place := if cursor < 0 then cursor + values.length else cursor
  if place < 0 then none else values[place.toNat]?

/-- The cursor behind another one: around the end, or up to the last value. -/
def nextCursor (count : Nat) (cycle : Bool) (cursor : Int) : Int :=
  if cycle then (cursor + 1) % count else min (cursor + 1) (count - 1)

/-- The rule after it has been resolved. -/
def advance : Rule ω → Rule ω
  | sequential values cycle cursor =>
    if values.isEmpty then sequential values cycle cursor
    else sequential values cycle (nextCursor values.length cycle cursor)
  | rule => rule

/-- The rule as it was registered. -/
def reset : Rule ω → Rule ω
  | sequential values cycle _ => sequential values cycle 0
  | rule => rule

/-- The text of a template without the slots of its variables. -/
def localText (text : String) (bindings : Table (List Value)) : String :=
  String.ofList ((Segment.ofText text.toList).flatMap fun
    | .slot name => if bindings.contains name then [] else (Segment.slot name).written
    | .plain characters => characters)

/-- The values that a rule may resolve to the text of, as far as they are known beforehand. -/
def candidates : Rule ω → List Value
  | static values | weighted values _ | sequential values .. => values
  | function .. | range _ => []
  | conditional branches => branches.flatMap fun branch => branch.values ++ branch.fallback.getD []
  | template text bindings =>
    .str (localText text bindings) :: bindings.entries.flatMap Prod.snd

/-- The texts that a rule may resolve to, as far as they are known beforehand. -/
def texts (rule : Rule ω) : Except Fault (List String) := rule.candidates.mapM Value.text

/-- The name of the form of a rule, as notes give it. -/
def formName : Rule ω → String
  | static _ => "StaticRule"
  | function .. => "FunctionRule"
  | weighted .. => "WeightedRule"
  | conditional _ => "ConditionalRule"
  | sequential .. => "SequentialRule"
  | range _ => "RangeRule"
  | template .. => "TemplateRule"

end Rule

end TextGrammar
