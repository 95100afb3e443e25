import TextGrammar.Config.Keyword
import TextGrammar.Config.Tagged
import TextGrammar.Document.Basic
import TextGrammar.Engine.Request
import TextGrammar.Function.Registry

/-!
Loading: from configurations to requests to an engine. Settings come first, then modifiers, then
rules in their order; the rules before one that is refused stay loaded.
-/

namespace TextGrammar

/-- An engine while it is loaded, and the notes so far. -/
structure Loading (ε : Type) where
  engine : ε
  notes : List Note

/-- A step of loading. What has been asked of the engine before an error stays. -/
abbrev Load (ε α : Type) := ExceptT LoadError (StateM (Loading ε)) α

namespace Load

variable {ε ω : Type}

/-- Asks the engine for something. -/
def request [Performs ε ω] (request : Request ω) : Load ε Bool := fun loading =>
  let (reply, engine) := Performs.perform request loading.engine
  (.ok reply.accepted, ⟨engine, loading.notes ++ reply.notes⟩)

/-- Adds notes. -/
def report (notes : List Note) : Load ε Unit := fun loading =>
  (.ok (), { loading with notes := loading.notes ++ notes })

/-- The outcome of a step that asks for nothing. -/
def ofExcept {α : Type} (outcome : Except LoadError α) : Load ε α := fun loading =>
  (outcome, loading)

def ofFault {α : Type} (outcome : Except Fault α) : Load ε α :=
  ofExcept (outcome.mapError .fault)

/-! ### Rules -/

/-- An entry of a conditional rule as a branch, with the notes about its condition. -/
def branch (rule : String) (index : Nat) : ConditionEntry → Except LoadError (Branch × List Note)
  | .default values => .ok (⟨none, [], some values⟩, [])
  | .guarded condition (some values) =>
    if condition.truthy then
      match Predicate.compileValue condition with
      | .ok predicate => .ok (⟨some (.condition predicate), values, none⟩, predicate.notes)
      | .error reason => .error (.fault reason)
    else .error (.invalidCondition rule index)
  | .guarded _ none | .other _ => .error (.invalidCondition rule index)

/-- The branches of a conditional rule, from an index on. -/
def branches (rule : String) : Nat → List ConditionEntry → Load ε (List Branch)
  | _, [] => return []
  | index, entry :: rest => do
    let (branch, notes) ← ofExcept (branch rule index entry)
    report notes
    let more ← branches rule (index + 1) rest
    return branch :: more

/-- The rule to register. The handler of a function rule is looked up now and not again. -/
def registration (registry : Registry ω) (name : String) :
    RuleConfig → Load ε (Registration ω)
  | .static values => return .static values
  | .function function parameters =>
    match registry.get? function with
    | some definition => return .function definition.handler (parameters.getD [])
    | none => throw (.unknownFunction function)
  | .weighted values weights => do
    if values.length ≠ weights.length then
      let counts := s!"{values.length} values but {weights.length} weights"
      report [⟨.warning, .loading, s!"Weighted rule {Text.quoted name} has " ++ counts⟩]
    return .weighted values weights
  | .conditional entries => return .conditional (← branches name 0 entries)
  | .sequential values cycle =>
    let cycles := match cycle with
      | .scalar (.bool false) => false
      | _ => true
    return .sequential values cycles
  | .range min max step numberType => return .range min max step numberType
  | .template text bindings => return .template text bindings

/-- Loads a rule. -/
def rule [Performs ε ω] (registry : Registry ω) (name : String) (config : RuleConfig) :
    Load ε Unit := do
  let registration ← registration registry name config
  let _ ← request (.register name registration)
  report [⟨.debug, .loading, s!"Registered {config.kind.name} rule {Text.quoted name}"⟩]

/-- Loads a tagged rule. A value that is no object has no type. -/
def taggedRule [Performs ε ω] (registry : Registry ω) (name : String) (value : Value) :
    Load ε Unit :=
  match value with
  | .map _ => do
    let config ← ofExcept (Tagged.rule name value)
    rule registry name config
  | _ => throw (.ofRuleType .null name)

/-- Loads the tagged rule of an entry, whose key becomes the name when its turn has come. -/
def taggedEntry [Performs ε ω] (registry : Registry ω) (entry : Scalar × Value) :
    Load ε Unit := do
  let name ← ofFault entry.1.text
  taggedRule registry name entry.2

/-- Loads rules in their order. -/
def each {α : Type} (load : α → Load ε Unit) : List α → Load ε Unit
  | [] => return ()
  | entry :: rest => do
    load entry
    each load rest

/-! ### Documents -/

/-- Applies settings; a depth limit that is not positive is refused. -/
def settings [Performs ε ω] (settings : Settings) : Load ε Unit := do
  match settings.maxDepth with
  | some depth =>
    if depth < 1 then throw (.depthNotPositive depth)
    let _ ← request (.setMaxDepth depth)
  | none => pure ()
  match settings.randomSeed with
  | some seed =>
    let _ ← request (.setSeed seed)
  | none => pure ()

/-- Asks for modifiers; those that the engine does not know are left out. -/
def modifiers [Performs ε ω] : List String → Load ε Unit
  | [] => return ()
  | name :: rest => do
    let accepted ← request (.loadModifier name)
    if !accepted then
      report [⟨.warning, .loading, s!"Unknown modifier {Text.quoted name} ignored"⟩]
    modifiers rest

/-- Settings, modifiers and rules, in this order. -/
def parts [Performs ε ω] {α : Type} (settings? : Option Settings) (names? : Option (List String))
    (load : α → Load ε Unit) (rules : List α) : Load ε Unit := do
  match settings? with
  | some given => settings given
  | none => pure ()
  modifiers (names?.getD [])
  each load rules
  report [⟨.info, .loading, s!"Loaded {rules.length} rule(s)"⟩]

/-- Loads a configuration in its checked form. -/
def grammar [Performs ε ω] (registry : Registry ω) (config : GrammarConfig) : Load ε Unit :=
  parts config.settings config.modifiers (fun entry => rule registry entry.1 entry.2)
    config.rules.entries

/-- Loads a document. Its settings, its modifiers and the presence of rules are checked first, its
rules one by one while they are loaded. -/
def document [Performs ε ω] (registry : Registry ω) (value : Value) : Load ε Unit :=
  match value with
  | .map fields => do
    let settings? ← ofExcept (Settings.ofValue? (Fields.get fields "settings"))
    let names? ← ofExcept (modifierNames? (Fields.get fields "modifiers"))
    match Fields.get fields "rules" with
    | .map entries => parts settings? names? (taggedEntry registry) entries
    | _ => throw (.misfit (.noRules .grammar))
  | value => throw (.misfit (.notConfig value))

/-- Loads a document of keyword rules, all of which are converted before the first request. -/
def keywords [Performs ε ω] (registry : Registry ω) (value : Value) : Load ε Unit := do
  let config ← ofExcept (Keyword.grammar value)
  grammar registry config

/-- Loads a JSON text. -/
def json [Performs ε ω] (registry : Registry ω) (text : Value) : Load ε Unit := do
  let value ← ofExcept (Document.ofJson text)
  document registry value

/-- Loads a single rule of a kind that is read from a keyword rule, whatever else it would fit. -/
def single [Performs ε ω] (registry : Registry ω) (name : String) (kind : RuleKind)
    (value : Value) : Load ε Unit := do
  let config ← ofFault (Keyword.partsOfKind value kind)
  grammar registry ⟨Table.empty.put name config, none, none⟩

end Load

/-- What can be loaded: a document, a checked configuration, a JSON text, a document of keyword
rules, a tagged rule, or a keyword rule that is read as one of a kind. -/
inductive Load.Job where
  | document (value : Value)
  | grammar (config : GrammarConfig)
  | json (text : Value)
  | keywords (value : Value)
  | rule (name : String) (value : Value)
  | single (name : String) (kind : RuleKind) (value : Value)

/-- Does a job with the functions of a registry. -/
def Load.run {ε ω : Type} [Performs ε ω] (registry : Registry ω) : Load.Job → Load ε Unit
  | .document value => document registry value
  | .grammar config => grammar registry config
  | .json text => json registry text
  | .keywords value => keywords registry value
  | .rule name value => taggedRule registry name value
  | .single name kind value => single registry name kind value

end TextGrammar
