import TextGrammar.Config.Basic
import TextGrammar.LoadError

/-!
Documents as configurations: their settings, their modifier names, and their rules, however a rule
is read.
-/

namespace TextGrammar

/-- The integer of a setting, if it is given. -/
def Settings.integer? (name : String) (value : Value) : Except LoadError (Option Int) :=
  if value.isNull then .ok none
  else match value.toInt with
    | .ok number => .ok (some number)
    | .error .infinite => .error (.fault .infinite)
    | .error _ => .error (.notInteger name value)

/-- The value of a setting under its name, or under its other name if the first is absent. -/
def Settings.field (fields : Fields) (name otherName : String) : Value :=
  (fields.get? name).getD (fields.get otherName)

/-- The settings that a document gives. A value that is no map gives none of them; both integers
are read before the depth limit is checked. -/
def Settings.ofValue? (value : Value) : Except LoadError (Option Settings) :=
  if value.isNull then .ok none
  else do
    let fields := value.fieldsOrEmpty
    let maxDepth ← integer? "maxDepth" (field fields "maxDepth" "max_depth")
    let randomSeed ← integer? "randomSeed" (field fields "randomSeed" "random_seed")
    match maxDepth with
    | some depth => if depth < 1 then throw (.depthNotPositive depth)
    | none => pure ()
    return some ⟨maxDepth, randomSeed⟩

/-- The modifier names that a document gives: a text is one name, otherwise each element is. -/
def modifierNames? : Value → Except LoadError (Option (List String))
  | .scalar .null => .ok none
  | .scalar (.str name) => .ok (some [name])
  | value => do
    let elements ← value.elements
    return some (← elements.mapM fun element => (element.text : Except Fault String))

/-- The rule of an entry under its name, which it is read with. -/
def RuleConfig.ofEntry (read : String → Value → Except LoadError RuleConfig)
    (entry : Scalar × Value) : Except LoadError (String × RuleConfig) := do
  let name ← (entry.1.text : Except Fault String)
  return (name, ← read name entry.2)

/-- A whole document: its rules, its modifiers, its settings, checked in this order. Of rules with
the same name the last one counts, in the place of the first. -/
def GrammarConfig.ofDocument (holder : RuleHolder)
    (read : String → Value → Except LoadError RuleConfig) (document : Value) :
    Except LoadError GrammarConfig :=
  let fields := document.fieldsOrEmpty
  match fields.get "rules" with
  | .map entries => do
    let rules ← entries.mapM (RuleConfig.ofEntry read)
    let modifiers ← modifierNames? (fields.get "modifiers")
    let settings ← Settings.ofValue? (fields.get "settings")
    return ⟨.ofList rules, modifiers, settings⟩
  | _ => .error (.misfit (.noRules holder))

end TextGrammar
