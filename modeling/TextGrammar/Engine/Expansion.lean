import TextGrammar.Engine.Basic
import TextGrammar.Rule.Pick

/-!
Expansion: every slot that names a rule is replaced by what the rule resolves to, itself expanded,
up to the depth limit. What has happened before a failure stays.
-/

namespace TextGrammar

/-- An engine at work: its state, the world of the handlers, and the notes so far. -/
structure Run (ρ ω : Type) where
  engine : Engine ρ ω
  world : ω
  notes : List Note

/-- A step of an engine at work. -/
abbrev Expansion (ρ ω α : Type) := ExceptT Failure (StateM (Run ρ ω)) α

namespace Expansion

variable {ρ ω : Type}

/-- Resolves a rule with the sources of the run; a rule that was resolved moves on. -/
def resolve [Draws ρ] (name : String) (rule : Rule ω) : Expansion ρ ω String := fun run =>
  let engine := run.engine
  match rule.pick engine.context ⟨engine.generator, run.world, run.notes⟩ with
  | (.ok text, sources) =>
    let rules := engine.rules.put name rule.advance
    (.ok text, ⟨{ engine with rules, generator := sources.generator }, sources.world,
      sources.notes⟩)
  | (.error failure, sources) =>
    (.error failure, ⟨{ engine with generator := sources.generator }, sources.world,
      sources.notes⟩)

/-- Writes down what a rule gave, if it is to be recorded. -/
def record (recording : Bool) (name : String) (value : List Char) : Expansion ρ ω Unit :=
  if recording then
    modify fun run => { run with engine := run.engine.record name (String.ofList value) }
  else return ()

/-- The text of segments, the slots from left to right by a function of their names. -/
def segments (slot : String → Expansion ρ ω (List Char)) :
    List Segment → Expansion ρ ω (List Char)
  | [] => return []
  | .plain characters :: rest => do
    let more ← segments slot rest
    return characters ++ more
  | .slot name :: rest => do
    let value ← slot name
    let more ← segments slot rest
    return value ++ more

/-- What a slot stands for: itself if it names no rule, otherwise what the rule resolves to,
expanded by `inner`; it fails if there is no `inner`. -/
def slot [Draws ρ] (recording : Bool) (inner : Option (List Char → Expansion ρ ω (List Char)))
    (name : String) : Expansion ρ ω (List Char) := do
  let engine := (← get).engine
  match engine.rules.get? name with
  | none => return (Segment.slot name).written
  | some rule => match inner with
    | none => throw (.tooDeep engine.maxDepth name)
    | some inner => do
      let text ← resolve name rule
      let value ← inner text.toList
      record recording name value
      return value

/-- The text with its slots expanded, at most so many levels deep. -/
def expand [Draws ρ] (recording : Bool) : Nat → List Char → Expansion ρ ω (List Char)
  | 0, text => segments (slot recording none) (Segment.ofText text)
  | depth + 1, text =>
    segments (slot recording (some fun inner => expand recording depth inner))
      (Segment.ofText text)

/-- The text after the modifiers, in their order. -/
def modified (text : String) : Expansion ρ ω String := do
  let modifiers := (← get).engine.modifiers.entries
  match modifiers.foldlM (fun text (_, modifier) => modifier text) text with
  | .ok text => return text
  | .error failure => throw failure

end Expansion

/-- Generates a text. With `preserve` the context is read and every result of a rule is recorded in
it; without, the context is emptied first and stays empty. -/
def generate {ρ ω : Type} [Draws ρ] (text : String) (preserve : Bool) : Expansion ρ ω String := do
  if !preserve then modify fun run => { run with engine := run.engine.clearContext }
  let limit := (← get).engine.maxDepth.toNat
  let expanded ← Expansion.expand preserve limit text.toList
  Expansion.modified (String.ofList expanded)

end TextGrammar
