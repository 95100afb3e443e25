import TextGrammar.Function.Registry
import TextGrammar.Moment
import TextGrammar.Random.Draws
import TextGrammar.Value.Text

/-!
The functions that every registry begins with: random numbers, dice, the time of day, and choices.
They draw from the world that all handlers share. A parameter that is absent, null, zero or empty
counts as not given.
-/

namespace TextGrammar

/-- The world of the handlers: a source of draws and a clock. -/
class World (ω : Type) extends Draws ω where
  clock : TimeFormat → ω → String

namespace Builtin

variable {ω : Type} [World ω]

/-- What a handler does with the world. -/
abbrev Act (ω α : Type) := ExceptT Failure (StateM ω) α

def ofFault {α : Type} (outcome : Except Fault α) : Act ω α := fun world =>
  match outcome with
  | .ok value => (.ok value, world)
  | .error reason => (.error (.fault reason), world)

/-- A number below a bound. -/
def below (bound : Nat) (positive : 0 < bound) : Act ω (Fin bound) := fun world =>
  let (drawn, world) := Draws.below bound positive world
  (.ok drawn, world)

/-- An integer between two others, both included. -/
def between (low high : Int) : Act ω Int :=
  if positive : 0 < (high - low + 1).toNat then do
    let drawn ← below _ positive
    return low + drawn.val
  else throw (.fault .emptyInterval)

/-- An integer parameter, or what counts if it is not given. -/
def integer (parameters : Fields) (key : String) (otherwise : Int) : Act ω Int :=
  let value := parameters.get key
  if value.truthy then ofFault value.toInt else return otherwise

def single (text : String) : Value := .list [.str text]

/-- The numeral of an integer, which must not have too many digits. -/
def numeral (value : Int) : Act ω Value := do
  return single (← ofFault (Numeral.text value))

/-- A number from `min`, which is one if not given, up to `max`, which is a hundred. -/
def randomNumber : Handler ω := fun parameters => do
  let low ← integer parameters "min" 1
  let high ← integer parameters "max" 100
  numeral (← between low high)

/-- The sum of dice that are rolled one after the other. -/
def rollAll (sides : Int) : Nat → Int → Act ω Int
  | 0, sum => return sum
  | count + 1, sum => do
    let rolled ← between 1 sides
    rollAll sides count (sum + rolled)

/-- The sum of `count` dice, one if not given, with `sides` sides each, six if not given. -/
def diceRoll : Handler ω := fun parameters => do
  let sides ← integer parameters "sides" 6
  let count ← integer parameters "count" 1
  numeral (← rollAll sides count.toNat 0)

/-- The time now, in the format that is asked for. -/
def currentTime : Handler ω := fun parameters => do
  let format := parameters.get "format"
  let name ← ofFault (match format with
    | .scalar (.str name) => .ok name
    | .scalar _ => .ok ""
    | value => if value.truthy then .error .notKey else .ok "")
  fun world => (.ok (single (World.clock (TimeFormat.ofName name) world)), world)

/-- One of the choices, none if there are none; there are three if no choices are given. -/
def randomChoice : Handler ω := fun parameters => do
  let choices := parameters.get "choices"
  let choices ← if choices.isNull then
      pure [.str "option1", .str "option2", .str "option3"]
    else ofFault choices.elements
  if positive : 0 < choices.length then do
    let place ← below choices.length positive
    return single (← ofFault (choices.get place).text)
  else return .list []

/-- The functions that every registry begins with. -/
def all : List (Definition ω) :=
  [⟨"randomNumber", "Generate a random number within specified range", randomNumber⟩,
   ⟨"diceRoll", "Roll dice (e.g., d6, d20)", diceRoll⟩,
   ⟨"currentTime", "Get current time in various formats", currentTime⟩,
   ⟨"randomChoice", "Choose random item from provided array", randomChoice⟩]

/-- A registry that holds these functions only. -/
def registry : Registry ω := Registry.registerAll .empty all

/-- An emptied registry, with these functions if they are to be kept. -/
def cleared (keepBuiltins : Bool) : Registry ω := if keepBuiltins then registry else .empty

end Builtin

end TextGrammar
