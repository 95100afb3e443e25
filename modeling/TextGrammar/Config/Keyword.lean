import TextGrammar.Config.Tagged

/-!
Keyword rules: rules without a type, whose kind follows from the keys that are present. The kinds
are tried in a fixed order and the first that fits decides, so the keys of later kinds are
ignored.
-/

namespace TextGrammar.Keyword

/-- A value counts as present unless it is null, false, zero or an empty text; empty lists and
maps count. -/
def isPresent : Value → Bool
  | .list _ | .map _ => true
  | value => value.truthy

/-- The kinds of keyword rules, in the order in which they are tried. -/
def kinds : List RuleKind :=
  [.static, .conditional, .weighted, .range, .template, .sequential, .function]

/-- The fields hold what a kind needs. -/
def fieldsFit (fields : Fields) : RuleKind → Bool
  | .static => false
  | .conditional => isPresent (fields.get "if") && isPresent (fields.get "then")
  | .weighted => isPresent (fields.get "values") && isPresent (fields.get "weights")
  | .range => (fields.get "min").isNumber && (fields.get "max").isNumber
  | .template => isPresent (fields.get "template") && isPresent (fields.get "variables")
  | .sequential => isPresent (fields.get "sequence")
  | .function => isPresent (fields.get "function")

/-- A rule has the shape of a kind: a list is static, an object fits the kinds whose keys it
has. -/
def fits (rule : Value) (kind : RuleKind) : Bool :=
  match rule with
  | .list _ => kind = .static
  | .map fields => fieldsFit fields kind
  | _ => false

/-- The kind of a keyword rule: the first that it fits. -/
def kind? (rule : Value) : Option RuleKind := kinds.find? (fits rule)

/-- The kind of a keyword rule, or an error that names the rule. -/
def classify (name : Option String) (rule : Value) : Except LoadError RuleKind :=
  match kind? rule with
  | some kind => .ok kind
  | none => .error (.ambiguousShape name)

/-- One guarded entry, and a default one if the other values are present. -/
def conditional (rule : Value) : Except Fault RuleConfig := do
  let condition ← (← rule.require "if").text
  let values ← (← rule.require "then").elements
  let fallback ← rule.lookup "else"
  if isPresent fallback then
    return .conditional [.guarded (.str condition) (some values), .default (← fallback.elements)]
  else return .conditional [.guarded (.str condition) (some values)]

def weighted (rule : Value) : Except Fault RuleConfig := do
  return .weighted (← (← rule.require "values").elements) (← (← rule.require "weights").elements)

def range (rule : Value) : Except Fault RuleConfig := do
  let min ← rule.require "min"
  let max ← rule.require "max"
  let step ← rule.lookup "step"
  let type ← rule.lookup "type"
  return .range min max step (if type.truthy then type else .str "integer")

def template (rule : Value) : Except Fault RuleConfig := do
  let text ← (← rule.require "template").text
  let entries ← (← rule.require "variables").toFields
  return .template text (← Tagged.bindings entries)

/-- The cycle setting passes through as it is. -/
def sequential (rule : Value) : Except Fault RuleConfig := do
  let values ← (← rule.require "sequence").elements
  return .sequential values (← rule.lookup "cycle")

def function (rule : Value) : Except Fault RuleConfig := do
  let parameters := match ← rule.lookup "parameters" with
    | .map entries => some entries
    | _ => none
  return .function (← (← rule.require "function").text) parameters

/-- A rule read as one of a kind. -/
def ofKind (rule : Value) : RuleKind → Except Fault RuleConfig
  | .static => return .static (← rule.elements)
  | .conditional => conditional rule
  | .weighted => weighted rule
  | .range => range rule
  | .template => template rule
  | .sequential => sequential rule
  | .function => function rule

/-- The rule that a keyword rule stands for. -/
def convert (name : Option String) (rule : Value) : Except LoadError RuleConfig := do
  let kind ← classify name rule
  ofKind rule kind

/-- A conditional rule built from its parts, of which any may be absent: whoever loads it reports
what is missing. -/
def conditionalParts (rule : Value) : Except Fault RuleConfig := do
  let values ← rule.lookup "then"
  let condition ← rule.lookup "if"
  let condition := if condition.truthy then condition else .str ""
  let values ← if values.isNull then pure none else some <$> values.elements
  let fallback ← rule.lookup "else"
  if isPresent fallback then
    return .conditional [.guarded condition values, .default (← fallback.elements)]
  else return .conditional [.guarded condition values]

/-- A rule read as one of a kind, a conditional one from its parts. -/
def partsOfKind (rule : Value) : RuleKind → Except Fault RuleConfig
  | .conditional => conditionalParts rule
  | kind => ofKind rule kind

/-- A whole document of keyword rules. -/
def grammar (document : Value) : Except LoadError GrammarConfig :=
  GrammarConfig.ofDocument .keywords (fun name => convert (some name)) document

end TextGrammar.Keyword
