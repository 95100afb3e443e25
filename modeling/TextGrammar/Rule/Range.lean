import TextGrammar.Number.Fixed
import TextGrammar.Value.Order

/-!
Number ranges. Integers are drawn from the grid that begins at the lower bound and stays below the
upper one; real numbers are drawn between the bounds and snapped to the grid of the step if there
is one.
-/

namespace TextGrammar

/-- The bounds and the step of a range, of integers or of real numbers. -/
structure Range where
  min : Value
  max : Value
  step : Value
  real : Bool
deriving Repr

namespace Range

/-- The number that a bound stands for in arithmetic. -/
def numberOf (value : Value) : Except Fault Number :=
  match value.number? with
  | some number => .ok number
  | none => .error .notNumber

/-- The step if it counts as present and, as a number, compares as wanted with a bound. -/
def stepIf (wanted : Option Ordering → Bool) (bound : Int) (step : Value) :
    Except Fault (Option Number) :=
  if step.truthy then do
    let number ← match step.number? with
      | some number => .ok number
      | none => .error .notOrdered
    return if wanted (Number.compare? number (.int bound)) then some number else none
  else .ok none

/-- The distance of the grid of integers: the integer part of the step, one if there is no step or
a smaller one. -/
def stride (step : Value) : Except Fault Int := do
  match ← stepIf (fun order => order = some .gt || order = some .eq) 1 step with
  | some number => number.truncate
  | none => return 1

/-- The grid of a range of integers: where it begins, its distance and how many points it has. The
count is the quotient, rounded to a floating-point number, rounded up. -/
def grid (range : Range) : Except Fault (Int × Int × Int) := do
  let stride ← stride range.step
  let low ← (← numberOf range.min).ceil
  let width ← (← numberOf range.max).sub (.int low)
  let quotient ← width.div (.int stride)
  let count ← (Number.real quotient).ceil
  return (low, stride, count)

/-- How many decimal places a step asks for: those of its shortest text, ten if that has an
exponent. -/
def places (step : Number) : Except Fault Nat := do
  let text := (← step.toBinary64).text.toList
  if text.contains 'e' then return 10
  else
    let fraction := (text.dropWhile (· ≠ '.')).drop 1
    return (fraction.reverse.dropWhile (· = '0')).length

/-- A number with a fixed count of decimal places. -/
def fixedText (places : Nat) (number : Number) : Except Fault String := do
  return (← number.toBinary64).fixed places

/-- The width of a range of real numbers. -/
def width (range : Range) : Except Fault Number := do
  (← numberOf range.max).sub (← numberOf range.min)

/-- The number at a fraction of the way between the bounds. -/
def between (range : Range) (width : Number) (fraction : Binary64) : Except Fault Number := do
  (← numberOf range.min).add (← (Number.real fraction).mul width)

/-- The greatest point of the grid of the step that is not above a number. -/
def snap (range : Range) (step value : Number) : Except Fault Number := do
  let min ← numberOf range.min
  let distance ← value.sub min
  let count ← (Number.real (← distance.div step)).floor
  min.add (← (Number.int count).mul step)

/-- The text of a real number drawn at a fraction of the way between the bounds: snapped to the
step with as many places as the step, or with two places. -/
def realText (range : Range) (width : Number) (fraction : Binary64) : Except Fault String := do
  let value ← between range width fraction
  match ← stepIf (fun order => order = some .gt) 0 range.step with
  | some step =>
    let snapped ← snap range step value
    fixedText (← places step) snapped
  | none => fixedText 2 value

/-- The upper bound is not above the lower one. -/
def isEmpty (range : Range) : Except Fault Bool := range.max.atMost range.min

end Range

end TextGrammar
