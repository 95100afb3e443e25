import TextGrammar.Note
import TextGrammar.Random.Draws
import TextGrammar.Rule.Basic
import TextGrammar.Rule.Weighted

/-!
Resolving a rule: the text that it gives for the next draws, in a context.
-/

namespace TextGrammar

/-- What resolving a rule reads and changes: a source of draws, the world of the handlers, and the
notes so far. -/
structure Sources (ρ ω : Type) where
  generator : ρ
  world : ω
  notes : List Note

/-- Resolving keeps what it changed even if it fails. -/
abbrev Pick (ρ ω α : Type) := ExceptT Failure (StateM (Sources ρ ω)) α

namespace Pick

variable {ρ ω : Type}

/-- A number below a bound. -/
def below [Draws ρ] (bound : Nat) (positive : 0 < bound) : Pick ρ ω (Fin bound) := fun sources =>
  let (drawn, generator) := Draws.below bound positive sources.generator
  (.ok drawn, { sources with generator })

/-- A number between zero and one. -/
def unit [Draws ρ] : Pick ρ ω Binary64 := fun sources =>
  let (drawn, generator) := Draws.unit sources.generator
  (.ok drawn, { sources with generator })

/-- The outcome of a step that draws nothing. -/
def ofOutcome {α : Type} (outcome : Except Failure α) : Pick ρ ω α := fun sources =>
  (outcome, sources)

/-- The outcome of a step that draws nothing and fails only by a value that cannot be used. -/
def ofFault {α : Type} (outcome : Except Fault α) : Pick ρ ω α :=
  ofOutcome (outcome.mapError .fault)

/-- Adds notes. -/
def report (notes : List Note) : Pick ρ ω Unit := fun sources =>
  (.ok (), { sources with notes := sources.notes ++ notes })

/-- The value that a handler gives. -/
def call (handler : Handler ω) (parameters : Fields) : Pick ρ ω Value := fun sources =>
  let (outcome, world) := handler parameters sources.world
  (outcome, { sources with world })

/-- The text of one of the values, each as likely as the others; nothing is drawn if there are
none. -/
def uniform [Draws ρ] (values : List Value) : Pick ρ ω String :=
  if positive : 0 < values.length then do
    let place ← below values.length positive
    ofFault (values.get place).text
  else return ""

/-- The text of a value chosen by its weight, the weights being numbers of any type and `draw` a
source of numbers between zero and one; if no weight is positive, each value is as likely as the
others, those without a weight included. -/
def byWeight {α : Type} [OfNat α 0] [Add α] [Mul α] [LT α] [DecidableLT α] [LE α] [DecidableLE α]
    [Draws ρ] (draw : Pick ρ ω α) (values : List Value) (pairs : List (Value × α)) :
    Pick ρ ω String :=
  if Weighted.total (pairs.map Prod.snd) ≤ 0 then uniform values
  else do
    let drawn ← draw
    ofFault (((Weighted.choose pairs drawn).map Value.text).getD (.ok ""))

/-- The text of a value chosen by its weight, as a floating-point number; weights beyond the values
are not looked at. -/
def weighted [Draws ρ] (values weights : List Value) : Pick ρ ω String := do
  let pairs ← ofFault ((values.zip weights).mapM fun (value, weight) => do
    return (value, ← weight.toBinary64))
  byWeight unit values pairs

/-- The notes of the guards up to the first one that holds or fails. -/
def guardNotes (context : Table String) : List Branch → List Note
  | [] => []
  | branch :: rest =>
    let notes := (branch.guard.map (Guard.notes context)).getD []
    match branch.answer context with
    | .ok false => notes ++ guardNotes context rest
    | _ => notes

/-- The text of a number of a range. -/
def range [Draws ρ] (range : Range) : Pick ρ ω String :=
  if range.real then do
    let width ← ofFault range.width
    let fraction ← unit
    ofFault (range.realText width fraction)
  else do
    let (low, stride, count) ← ofFault range.grid
    if positive : 0 < count.toNat then
      let place ← below count.toNat positive
      ofFault (Numeral.text (low + place.val * stride))
    else ofFault (Numeral.text low)

/-- The text of a template with a value for each slot of a variable. -/
def template [Draws ρ] (bindings : Table (List Value)) : List Segment → Pick ρ ω (List Char)
  | [] => return []
  | .plain characters :: rest => return characters ++ (← template bindings rest)
  | .slot name :: rest => match bindings.get? name with
    | some values => do
      let value ← uniform values
      return value.toList ++ (← template bindings rest)
    | none => return (Segment.slot name).written ++ (← template bindings rest)

end Pick

/-- The text that a rule resolves to. -/
def Rule.pick {ρ ω : Type} [Draws ρ] (context : Table String) : Rule ω → Pick ρ ω String
  | static values => Pick.uniform values
  | function handler parameters => do
    let value ← Pick.call handler parameters
    Pick.uniform (← Pick.ofFault value.elements)
  | weighted values weights => Pick.weighted values weights
  | conditional branches => do
    Pick.report (Pick.guardNotes context branches)
    Pick.uniform (← Pick.ofOutcome (chosen context branches))
  | sequential values _ cursor =>
    if values.isEmpty then return ""
    else match valueAt? values cursor with
      | some value => Pick.ofFault value.text
      | none => throw (.fault .outside)
  | range bounds => Pick.range bounds
  | template text bindings => do
    return String.ofList (← Pick.template bindings (Segment.ofText text.toList))

end TextGrammar
