import TextGrammar.Engine.Basic
import TextGrammar.Engine.Cycle

/-!
Review of rules without generating anything: references to rules that do not exist, cycles of
references, and rules that look wrong.
-/

namespace TextGrammar

/-- What a review finds. -/
structure Review where
  missing : List String
  cycles : List (List String)
  warnings : List String
deriving Repr

namespace Review

variable {ρ ω : Type}

/-- Nothing is missing and nothing is circular; warnings do not count. -/
def isValid (review : Review) : Bool := review.missing.isEmpty && review.cycles.isEmpty

/-- A list without the later repetitions. -/
def distinct (names : List String) : List String :=
  names.foldl (fun seen name => if seen.contains name then seen else seen ++ [name]) []

/-- The names that the texts of a rule refer to, each once. -/
def referencesOf (rule : Rule ω) : Except Fault (List String) := do
  let texts ← rule.texts
  return distinct (texts.flatMap fun text => Segment.names text.toList)

/-- The references of every rule. -/
def references (rules : Table (Rule ω)) : Except Fault (Table (List String)) := do
  return ⟨← rules.entries.mapM fun (name, rule) => do return (name, ← referencesOf rule)⟩

/-- The names that rules refer to and that name no rule, each once. -/
def missingNames (references : Table (List String)) : List String :=
  distinct ((references.entries.flatMap Prod.snd).filter fun name => !references.contains name)

/-- What looks wrong with a rule. -/
def warning? (name : String) : Rule ω → Except Fault (Option String)
  | .static values | .sequential values .. =>
    return if values.isEmpty then some s!"Rule '{name}' has no values" else none
  | .weighted values weights =>
    return if values.length ≠ weights.length then
      some s!"Rule '{name}' has {values.length} values but {weights.length} weights"
    else none
  | .conditional branches =>
    return if branches.any fun branch => branch.fallback.isSome then none
    else some s!"Conditional rule '{name}' has no default"
  | .range range => do
    return if ← range.isEmpty then some s!"Range rule '{name}' has max <= min" else none
  | .function .. | .template .. => return none

/-- What looks wrong, in the order of the rules. -/
def warningsOf (rules : Table (Rule ω)) : Except Fault (List String) := do
  let found ← rules.entries.mapM fun (name, rule) => warning? name rule
  return found.filterMap id

/-- The review of rules; fails if a value has no text or the bounds of a range cannot be
compared. -/
def ofRules (rules : Table (Rule ω)) : Except Fault Review := do
  let references ← references rules
  return ⟨missingNames references, Cycle.find references, ← warningsOf rules⟩

end Review

/-- The review of the rules of an engine. -/
def Engine.review {ρ ω : Type} (engine : Engine ρ ω) : Except Fault Review :=
  Review.ofRules engine.rules

end TextGrammar
