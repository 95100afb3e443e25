import TextGrammar.Json.Problem
import TextGrammar.Value.Text

/-!
Errors of loading: why a document, a configuration or a rule is refused, and how each is worded.
-/

namespace TextGrammar

/-- The form that a field of a rule has to have. -/
inductive FieldForm where
  | list
  | number
  | text
  | nonEmptyText
  | object
deriving DecidableEq, Repr

def FieldForm.description : FieldForm → String
  | list => "a list"
  | number => "a number"
  | text => "a string"
  | nonEmptyText => "a non-empty string"
  | object => "an object"

/-- Whatever has to hold rules. -/
inductive RuleHolder where
  | grammar
  | keywords
  | document (path : String)
deriving DecidableEq, Repr

def RuleHolder.description : RuleHolder → String
  | grammar => "Grammar config"
  | keywords => "Keyword config"
  | document path => "Grammar document " ++ path

/-- A configuration that does not have the form it should have. -/
inductive Misfit where
  | notObject (rule : String) (found : Value)
  | field (rule key : String) (form : FieldForm)
  | depthNotPositive (depth : String)
  | notInteger (setting found : String)
  | noRules (holder : RuleHolder)
  | notConfig (found : Value)

def Misfit.message : Misfit → String
  | notObject rule found =>
    s!"Rule {Text.quoted rule}: expected an object, got {found.kindName}"
  | field rule key form => s!"Rule {Text.quoted rule}: '{key}' must be {form.description}"
  | depthNotPositive depth => s!"settings.maxDepth must be a positive integer, got {depth}"
  | notInteger setting found => s!"settings.{setting} must be an integer, got {found}"
  | noRules holder => s!"{holder.description} requires a 'rules' object"
  | notConfig found => s!"Expected a grammar config, got {found.kindName}"

/-- A document that cannot be read as an object. -/
inductive Unreadable where
  | yaml (path : String)
  | toml (path : String)
  | notObject (path : String)
deriving DecidableEq, Repr

def Unreadable.message : Unreadable → String
  | yaml path => "Failed to parse YAML grammar " ++ path
  | toml path => "Failed to parse TOML grammar " ++ path
  | notObject path => s!"Grammar document {path} must contain an object at the top level"

/-- Why loading fails: one of the faults that documents are checked for, or a value that cannot be
used as a rule would use it. -/
inductive LoadError where
  | json (problem : Json.Problem) (place : Json.Place)
  | jsonNotText (found : Value)
  | unreadable (reason : Unreadable)
  | unknownRuleType (type rule : String)
  | unknownFunction (name : String)
  | invalidCondition (rule : String) (index : Nat)
  | ambiguousShape (rule : Option String)
  | misfit (misfit : Misfit)
  | fault (fault : Fault)

namespace LoadError

/-- The error whose wording shows a text that there may not be; without it nothing can be worded. -/
def showing (error : String → LoadError) : Except Fault String → LoadError
  | .ok text => error text
  | .error reason => fault reason

/-- A depth limit that is not positive. -/
def depthNotPositive (depth : Int) : LoadError :=
  showing (fun text => misfit (.depthNotPositive text)) (Numeral.text depth)

/-- A setting that is no integer. -/
def notInteger (setting : String) (found : Value) : LoadError :=
  showing (fun text => misfit (.notInteger setting text)) found.quoted

/-- A rule whose type is not one of those that there are. -/
def ofRuleType (type : Value) (rule : String) : LoadError :=
  showing (fun text => unknownRuleType text rule) type.text

/-- The error is one of those that documents are checked for. -/
def isChecked : LoadError → Bool
  | fault _ => false
  | _ => true

/-- The wording of an error; faults have none. -/
def message? : LoadError → Option String
  | json problem place => some ("Failed to parse JSON: " ++ Json.describe problem place)
  | jsonNotText found =>
    some ("Failed to parse JSON: the JSON object must be str, bytes or bytearray, not " ++
      found.kindName)
  | unreadable reason => some reason.message
  | unknownRuleType type rule =>
    let place := if rule = "" then "" else s!" (rule {Text.quoted rule})"
    some ("Unknown rule type: " ++ type ++ place)
  | unknownFunction name => some ("Unknown function: " ++ name)
  | invalidCondition rule index =>
    some s!"Invalid condition format in rule {Text.quoted rule} at entry {index}"
  | ambiguousShape rule =>
    let place := match rule with
      | none | some "" => ""
      | some rule => s!" for rule {Text.quoted rule}"
    some ("Unable to determine rule type from keywords" ++ place)
  | .misfit reason => some reason.message
  | fault _ => none

instance : MonadLift (Except Fault) (Except LoadError) where
  monadLift
    | .ok value => .ok value
    | .error reason => .error (.fault reason)

end LoadError

end TextGrammar
