import TextGrammar.Table
import TextGrammar.Value.Basic

/-!
Configurations: what a grammar document says, before an engine takes its rules.
-/

namespace TextGrammar

/-- The kinds of rules. -/
inductive RuleKind where
  | static
  | function
  | weighted
  | conditional
  | sequential
  | range
  | template
deriving DecidableEq, Repr

namespace RuleKind

/-- All kinds, in the order of their names in documents. -/
def all : List RuleKind :=
  [static, function, weighted, conditional, sequential, range, template]

def name : RuleKind → String
  | static => "static"
  | function => "function"
  | weighted => "weighted"
  | conditional => "conditional"
  | sequential => "sequential"
  | range => "range"
  | template => "template"

/-- The kind with a name. -/
def ofName? (name : String) : Option RuleKind := all.find? fun kind => kind.name = name

end RuleKind

/-- An entry of a conditional rule: a condition with the values that it guards, values for when no
condition holds, or a value of neither shape. -/
inductive ConditionEntry where
  | guarded (condition : Value) (values : Option (List Value))
  | default (values : List Value)
  | other (value : Value)
deriving Repr

/-- What a document says about one rule. Fields that an engine interprets, such as the bounds of a
range, stay dynamic values. -/
inductive RuleConfig where
  | static (values : List Value)
  | function (name : String) (parameters : Option Fields)
  | weighted (values weights : List Value)
  | conditional (entries : List ConditionEntry)
  | sequential (values : List Value) (cycle : Value)
  | range (min max step numberType : Value)
  | template (text : String) (bindings : Table (List Value))
deriving Repr

def RuleConfig.kind : RuleConfig → RuleKind
  | static .. => .static
  | function .. => .function
  | weighted .. => .weighted
  | conditional .. => .conditional
  | sequential .. => .sequential
  | range .. => .range
  | template .. => .template

/-- The depth limit and the seed that a document asks for. -/
structure Settings where
  maxDepth : Option Int
  randomSeed : Option Int
deriving DecidableEq, Repr

/-- A whole grammar document in its checked form. -/
structure GrammarConfig where
  rules : Table RuleConfig
  modifiers : Option (List String)
  settings : Option Settings
deriving Repr

end TextGrammar
