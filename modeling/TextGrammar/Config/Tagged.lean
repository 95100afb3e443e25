import TextGrammar.Config.Settings

/-!
Tagged rules: objects whose `type` names their kind. Every field is checked for its form, with the
exception of the entries of a conditional rule, of which those of neither shape are kept as they
are.
-/

namespace TextGrammar.Tagged

/-- A field that has to be a list. -/
def requireList (rule : String) (fields : Fields) (key : String) :
    Except LoadError (List Value) :=
  match fields.get key with
  | .list items => .ok items
  | _ => .error (.misfit (.field rule key .list))

/-- A field that has to be a number. -/
def requireNumber (rule : String) (fields : Fields) (key : String) : Except LoadError Value :=
  if (fields.get key).isNumber then .ok (fields.get key)
  else .error (.misfit (.field rule key .number))

/-- A field that is absent, null or a number. -/
def optionalNumber (rule : String) (fields : Fields) (key : String) : Except LoadError Value :=
  if (fields.get key).isNull then .ok .null else requireNumber rule fields key

/-- The parameters of a function rule, if they are a map. -/
def parameters? (fields : Fields) : Option Fields :=
  match fields.get "parameters" with
  | .map entries => some entries
  | _ => none

/-- A variable of a template: its name as text, its values as the elements of its entry. -/
def binding (entry : Scalar × Value) : Except Fault (String × List Value) := do
  let name ← entry.1.text
  return (name, ← entry.2.elements)

/-- The variables of a template. -/
def bindings (entries : Fields) : Except Fault (Table (List Value)) := do
  return .ofList (← entries.mapM binding)

/-- An entry of a conditional rule. An empty list counts as present, an empty condition does
not. -/
def conditionEntry (value : Value) : Except Fault ConditionEntry :=
  match value with
  | .map entries =>
    let fallback := Fields.get entries "default"
    let condition := Fields.get entries "if"
    let values := Fields.get entries "then"
    if !fallback.isNull then do
      return .default (← fallback.elements)
    else if condition.truthy && !values.isNull then do
      let text ← condition.text
      return .guarded (.str text) (some (← values.elements))
    else .ok (.other value)
  | value => .ok (.other value)

/-- The rule of a kind that fields describe. -/
def ruleOfKind (rule : String) (fields : Fields) : RuleKind → Except LoadError RuleConfig
  | .static => do
    return .static (← requireList rule fields "values")
  | .function =>
    match fields.get "functionName" with
    | .scalar (.str name) =>
      if name = "" then .error (.misfit (.field rule "functionName" .nonEmptyText))
      else .ok (.function name (parameters? fields))
    | _ => .error (.misfit (.field rule "functionName" .nonEmptyText))
  | .weighted => do
    return .weighted (← requireList rule fields "values") (← requireList rule fields "weights")
  | .conditional => do
    let entries ← requireList rule fields "conditions"
    return .conditional (← entries.mapM fun entry => (conditionEntry entry : Except Fault _))
  | .sequential => do
    let cycle := match fields.get "cycle" with
      | .scalar (.bool value) => .bool value
      | _ => .null
    return .sequential (← requireList rule fields "values") cycle
  | .range => do
    let min ← requireNumber rule fields "min"
    let max ← requireNumber rule fields "max"
    let step ← optionalNumber rule fields "step"
    let numberType := match fields.get "numberType" with
      | .scalar (.str name) => .str name
      | _ => .null
    return .range min max step numberType
  | .template =>
    match fields.get "template" with
    | .scalar (.str text) =>
      match fields.get "variables" with
      | .map entries => do return .template text (← bindings entries)
      | _ => .error (.misfit (.field rule "variables" .object))
    | _ => .error (.misfit (.field rule "template" .text))

/-- The rule that a value describes. -/
def rule (name : String) (value : Value) : Except LoadError RuleConfig :=
  match value with
  | .map fields =>
    let kind? := match Fields.get fields "type" with
      | .scalar (.str type) => RuleKind.ofName? type
      | _ => none
    match kind? with
    | some kind => ruleOfKind name fields kind
    | none => .error (.ofRuleType (Fields.get fields "type") name)
  | value => .error (.misfit (.notObject name value))

/-- A whole document of tagged rules. -/
def grammar (document : Value) : Except LoadError GrammarConfig :=
  GrammarConfig.ofDocument .grammar rule document

end TextGrammar.Tagged
