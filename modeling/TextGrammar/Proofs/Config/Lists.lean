import TextGrammar.Config.Keyword
import TextGrammar.Proofs.Config.Forms

/-!
The lists of configurations. Main statement: every list of a rule that is accepted has the elements
of one value of the raw rule, so that nothing is lost exactly if these values are lists. Only
static, weighted and sequential rules with a type are refused otherwise; elsewhere a text falls
apart into its characters and a map into its keys.
-/

namespace TextGrammar

/-! ### The lists and the values that they are made from -/

def ConditionEntry.lists : ConditionEntry → List (List Value)
  | .guarded _ (some values) | .default values => [values]
  | .guarded _ none | .other _ => []

/-- The lists of a rule, in the order of its fields. -/
def RuleConfig.lists : RuleConfig → List (List Value)
  | .static values | .sequential values _ => [values]
  | .weighted values weights => [values, weights]
  | .conditional entries => entries.flatMap ConditionEntry.lists
  | .template _ bindings => bindings.entries.map Prod.snd
  | .function .. | .range .. => []

/-- The values of variables, whose names have to be texts; of those with the same name the last one
counts. -/
def bindingSources (entries : Fields) : List Value :=
  match entries.named with
  | .ok pairs => (Table.ofList pairs).entries.map Prod.snd
  | .error _ => []

/-- The value that the list of a conditional entry is made from, if the entry has one. -/
def Tagged.entrySources : Value → List Value
  | .map fields =>
    if !(Fields.get fields "default").isNull then [Fields.get fields "default"]
    else if (Fields.get fields "if").truthy && !(Fields.get fields "then").isNull then
      [Fields.get fields "then"]
    else []
  | _ => []

/-- The values that the lists of a tagged rule are made from. -/
def Tagged.sources (fields : Fields) : RuleKind → List Value
  | .static | .sequential => [fields.get "values"]
  | .weighted => [fields.get "values", fields.get "weights"]
  | .conditional => match fields.get "conditions" with
    | .list entries => entries.flatMap entrySources
    | _ => []
  | .template => bindingSources (fields.get "variables").fieldsOrEmpty
  | .function | .range => []

/-- The values that the lists of a keyword rule are made from. -/
def Keyword.sources (rule : Value) : RuleKind → List Value
  | .static => [rule]
  | .sequential => [rule.fieldsOrEmpty.get "sequence"]
  | .weighted => [rule.fieldsOrEmpty.get "values", rule.fieldsOrEmpty.get "weights"]
  | .conditional =>
    rule.fieldsOrEmpty.get "then" :: if isPresent (rule.fieldsOrEmpty.get "else") then
      [rule.fieldsOrEmpty.get "else"] else []
  | .template => match (rule.fieldsOrEmpty.get "variables").toFields with
    | .ok entries => bindingSources entries
    | .error _ => []
  | .function | .range => []

/-- The lists have the elements of the values. -/
def MadeFrom (sources : List Value) (lists : List (List Value)) : Prop :=
  List.Forall₂ (fun source items => source.elements = .ok items) sources lists

/-- The values are these lists. -/
def Lossless (sources : List Value) (lists : List (List Value)) : Prop := sources = lists.map .list

/-- Nothing is lost exactly if lists are made from lists. -/
theorem MadeFrom.lossless_iff {sources : List Value} {lists : List (List Value)}
    (made : MadeFrom sources lists) :
    Lossless sources lists ↔ ∀ source ∈ sources, source.isList := by
  unfold Lossless
  induction made with
  | nil => simp
  | @cons source items rest more first behind ih =>
    have same : source = .list items ↔ source.isList := by
      constructor
      · rintro rfl
        rfl
      · intro list
        obtain ⟨others, rfl⟩ := Value.isList_iff.mp list
        rw [Except.ok.inj first]
    simp [ih, same]

/-- Variables are bound to the elements of their values. -/
theorem madeFrom_bindings {entries : Fields} {bindings : Table (List Value)}
    (bound : Tagged.bindings entries = .ok bindings) :
    MadeFrom (bindingSources entries) (bindings.entries.map Prod.snd) := by
  obtain ⟨pairs, lists, given, rfl, made⟩ := exists_of_bindings_eq_ok bound
  rw [bindingSources, given]
  exact made.ofList.values

/-! ### Tagged rules -/

namespace Tagged

theorem madeFrom_conditionEntry {value : Value} {entry : ConditionEntry}
    (read : conditionEntry value = .ok entry) : MadeFrom (entrySources value) entry.lists := by
  cases value with
  | scalar content =>
    cases read
    exact .nil
  | list items =>
    cases read
    exact .nil
  | map fields =>
    simp only [conditionEntry] at read
    simp only [entrySources]
    split at read
    · rename_i present
      obtain ⟨values, made, given⟩ := Effect.bind_eq_ok.mp read
      cases given
      rw [if_pos present]
      exact .cons made .nil
    · rename_i absent
      rw [if_neg absent]
      split at read
      · rename_i guarded
        obtain ⟨text, -, read⟩ := Effect.bind_eq_ok.mp read
        obtain ⟨values, made, given⟩ := Effect.bind_eq_ok.mp read
        cases given
        rw [if_pos guarded]
        exact .cons made .nil
      · rename_i unguarded
        cases read
        rw [if_neg unguarded]
        exact .nil

theorem madeFrom_list {fields : Fields} {name key : String} {items : List Value}
    (read : requireList name fields key = .ok items) :
    (fields.get key).elements = .ok items := by
  rw [requireList_eq_ok_iff.mp read]
  rfl

theorem madeFrom_conditional {name : String} {fields : Fields} {config : RuleConfig}
    (read : ruleOfKind name fields .conditional = .ok config) :
    config.kind = .conditional ∧ MadeFrom (sources fields .conditional) config.lists := by
  obtain ⟨entries, listed, read⟩ := Effect.bind_eq_ok.mp read
  obtain ⟨configs, traversed, given⟩ := Effect.bind_eq_ok.mp read
  cases given
  have each := Effect.mapM_eq_ok_iff.mp traversed
  simp only [sources, requireList_eq_ok_iff.mp listed]
  refine ⟨rfl, List.rel_flatMap each fun entry config converted => ?_⟩
  exact madeFrom_conditionEntry (LoadError.liftM_eq_ok.mp converted)

theorem madeFrom_template {name : String} {fields : Fields} {config : RuleConfig}
    (read : ruleOfKind name fields .template = .ok config) :
    config.kind = .template ∧ MadeFrom (sources fields .template) config.lists := by
  simp only [ruleOfKind] at read
  split at read
  · split at read
    · rename_i entries found
      obtain ⟨bindings, bound, given⟩ := Effect.bind_eq_ok.mp read
      cases given
      simp only [sources, found]
      exact ⟨rfl, madeFrom_bindings (LoadError.liftM_eq_ok.mp bound)⟩
    · cases read
  · cases read

/-- The rule that is read is of the kind, and its lists are made from its sources. -/
theorem madeFrom_ruleOfKind {name : String} {fields : Fields} {kind : RuleKind}
    {config : RuleConfig} (read : ruleOfKind name fields kind = .ok config) :
    config.kind = kind ∧ MadeFrom (sources fields kind) config.lists := by
  cases kind with
  | static =>
    obtain ⟨values, listed, given⟩ := Effect.bind_eq_ok.mp read
    cases given
    exact ⟨rfl, .cons (madeFrom_list listed) .nil⟩
  | function =>
    simp only [ruleOfKind] at read
    split at read
    · split at read
      · cases read
      · cases read
        exact ⟨rfl, .nil⟩
    · cases read
  | weighted =>
    obtain ⟨values, listed, read⟩ := Effect.bind_eq_ok.mp read
    obtain ⟨weights, weighed, given⟩ := Effect.bind_eq_ok.mp read
    cases given
    exact ⟨rfl, .cons (madeFrom_list listed) (.cons (madeFrom_list weighed) .nil)⟩
  | conditional => exact madeFrom_conditional read
  | sequential =>
    obtain ⟨values, listed, given⟩ := Effect.bind_eq_ok.mp read
    cases given
    exact ⟨rfl, .cons (madeFrom_list listed) .nil⟩
  | range =>
    obtain ⟨min, -, read⟩ := Effect.bind_eq_ok.mp read
    obtain ⟨max, -, read⟩ := Effect.bind_eq_ok.mp read
    obtain ⟨step, -, given⟩ := Effect.bind_eq_ok.mp read
    cases given
    exact ⟨rfl, .nil⟩
  | template => exact madeFrom_template read

/-- An accepted rule is one of the kind that its type names. -/
theorem ruleOfKind_of_accepted {name : String} {fields : Fields} {config : RuleConfig}
    (accepted : rule name (.map fields) = .ok config) :
    ruleOfKind name fields config.kind = .ok config := by
  by_cases named : ∃ kind : RuleKind, fields.get "type" = .str kind.name
  · obtain ⟨kind, type⟩ := named
    rw [rule_of_type type] at accepted
    rw [(madeFrom_ruleOfKind accepted).1]
    exact accepted
  · rw [rule_of_no_type (not_exists.mp named)] at accepted
    cases accepted

/-- The kinds whose values have to be lists. -/
def checksLists : RuleKind → Bool
  | .static | .weighted | .sequential => true
  | .function | .conditional | .range | .template => false

/-- The rules of these kinds are made from lists only. -/
theorem isList_of_checksLists {name : String} {fields : Fields} {config : RuleConfig}
    (accepted : rule name (.map fields) = .ok config) (checks : checksLists config.kind) :
    ∀ source ∈ sources fields config.kind, source.isList := by
  have read := ruleOfKind_of_accepted accepted
  have list {key : String} {items : List Value}
      (read : requireList name fields key = .ok items) : (fields.get key).isList :=
    Value.isList_iff.mpr ⟨items, requireList_eq_ok_iff.mp read⟩
  cases config with
  | static | sequential =>
    obtain ⟨values, listed, -⟩ := Effect.bind_eq_ok.mp read
    exact List.forall_mem_singleton.mpr (list listed)
  | weighted =>
    obtain ⟨values, listed, read⟩ := Effect.bind_eq_ok.mp read
    obtain ⟨weights, weighed, -⟩ := Effect.bind_eq_ok.mp read
    exact List.forall_mem_cons.mpr ⟨list listed, List.forall_mem_singleton.mpr (list weighed)⟩
  | function | conditional | range | template => cases checks

end Tagged

/-! ### Keyword rules -/

namespace Keyword

theorem madeFrom_require {rule value : Value} {key : String} {items : List Value}
    (required : rule.require key = .ok value) (made : value.elements = .ok items) :
    (rule.fieldsOrEmpty.get key).elements = .ok items := by
  rw [get_of_require required]
  exact made

theorem madeFrom_conditional {rule : Value} {config : RuleConfig}
    (read : ofKind rule .conditional = .ok config) :
    config.kind = .conditional ∧ MadeFrom (sources rule .conditional) config.lists := by
  obtain ⟨condition, -, read⟩ := Effect.bind_eq_ok.mp read
  obtain ⟨text, -, read⟩ := Effect.bind_eq_ok.mp read
  obtain ⟨guarded, required, read⟩ := Effect.bind_eq_ok.mp read
  obtain ⟨values, made, read⟩ := Effect.bind_eq_ok.mp read
  obtain ⟨fallback, given, read⟩ := Effect.bind_eq_ok.mp read
  simp only [sources, get_of_lookup given]
  have first := madeFrom_require required made
  split at read
  · rename_i present
    obtain ⟨others, made, given⟩ := Effect.bind_eq_ok.mp read
    cases given
    rw [if_pos present]
    exact ⟨rfl, .cons first (.cons made .nil)⟩
  · rename_i absent
    cases read
    rw [if_neg absent]
    exact ⟨rfl, .cons first .nil⟩

theorem madeFrom_template {rule : Value} {config : RuleConfig}
    (read : ofKind rule .template = .ok config) :
    config.kind = .template ∧ MadeFrom (sources rule .template) config.lists := by
  obtain ⟨given, -, read⟩ := Effect.bind_eq_ok.mp read
  obtain ⟨text, -, read⟩ := Effect.bind_eq_ok.mp read
  obtain ⟨value, required, read⟩ := Effect.bind_eq_ok.mp read
  obtain ⟨entries, found, read⟩ := Effect.bind_eq_ok.mp read
  obtain ⟨bindings, bound, given⟩ := Effect.bind_eq_ok.mp read
  cases given
  simp only [sources, get_of_require required, found]
  exact ⟨rfl, madeFrom_bindings bound⟩

/-- The rule that is read is of the kind, and its lists are made from its sources. -/
theorem madeFrom_ofKind {rule : Value} {kind : RuleKind} {config : RuleConfig}
    (read : ofKind rule kind = .ok config) :
    config.kind = kind ∧ MadeFrom (sources rule kind) config.lists := by
  cases kind with
  | static =>
    obtain ⟨values, made, given⟩ := Effect.bind_eq_ok.mp read
    cases given
    exact ⟨rfl, .cons made .nil⟩
  | conditional => exact madeFrom_conditional read
  | weighted =>
    obtain ⟨value, required, read⟩ := Effect.bind_eq_ok.mp read
    obtain ⟨values, made, read⟩ := Effect.bind_eq_ok.mp read
    obtain ⟨weight, weighed, read⟩ := Effect.bind_eq_ok.mp read
    obtain ⟨weights, madeWeights, given⟩ := Effect.bind_eq_ok.mp read
    cases given
    exact ⟨rfl, .cons (madeFrom_require required made)
      (.cons (madeFrom_require weighed madeWeights) .nil)⟩
  | range =>
    obtain ⟨min, -, read⟩ := Effect.bind_eq_ok.mp read
    obtain ⟨max, -, read⟩ := Effect.bind_eq_ok.mp read
    obtain ⟨step, -, read⟩ := Effect.bind_eq_ok.mp read
    obtain ⟨type, -, given⟩ := Effect.bind_eq_ok.mp read
    cases given
    exact ⟨rfl, .nil⟩
  | template => exact madeFrom_template read
  | sequential =>
    obtain ⟨value, required, read⟩ := Effect.bind_eq_ok.mp read
    obtain ⟨values, made, read⟩ := Effect.bind_eq_ok.mp read
    obtain ⟨cycle, -, given⟩ := Effect.bind_eq_ok.mp read
    cases given
    exact ⟨rfl, .cons (madeFrom_require required made) .nil⟩
  | function =>
    obtain ⟨parameters, -, read⟩ := Effect.bind_eq_ok.mp read
    obtain ⟨name, -, read⟩ := Effect.bind_eq_ok.mp read
    obtain ⟨text, -, given⟩ := Effect.bind_eq_ok.mp read
    cases given
    exact ⟨rfl, .nil⟩

theorem convert_eq_ok {name : Option String} {rule : Value} {config : RuleConfig}
    (accepted : convert name rule = .ok config) :
    ∃ kind, kind? rule = some kind ∧ ofKind rule kind = .ok config := by
  obtain ⟨kind, classified, read⟩ := Effect.bind_eq_ok.mp accepted
  unfold classify at classified
  split at classified
  · rename_i found isKind
    cases classified
    exact ⟨kind, isKind, LoadError.liftM_eq_ok.mp read⟩
  · cases classified

/-- A rule is read as static only if it is a list. -/
theorem isList_of_static {rule : Value} (static : kind? rule = some .static) : rule.isList := by
  have fit : fits rule .static = true := List.find?_some static
  cases rule with
  | list items => rfl
  | scalar | map => cases fit

end Keyword

/-! ### Accepted rules -/

/-- The lists of an accepted rule have the elements of its sources, and they are its sources exactly
if these are lists. That is checked for tagged static, weighted and sequential rules and for keyword
rules that are lists themselves. -/
theorem lists_of_accepted (name : String) (fields : Fields) (label : Option String)
    (rule : Value) :
    (∀ config, Tagged.rule name (.map fields) = .ok config →
      MadeFrom (Tagged.sources fields config.kind) config.lists ∧
      (Lossless (Tagged.sources fields config.kind) config.lists ↔
        ∀ source ∈ Tagged.sources fields config.kind, source.isList) ∧
      (Tagged.checksLists config.kind →
        Lossless (Tagged.sources fields config.kind) config.lists)) ∧
    (∀ config, Keyword.convert label rule = .ok config →
      MadeFrom (Keyword.sources rule config.kind) config.lists ∧
      (Lossless (Keyword.sources rule config.kind) config.lists ↔
        ∀ source ∈ Keyword.sources rule config.kind, source.isList) ∧
      (config.kind = .static → Lossless (Keyword.sources rule config.kind) config.lists)) := by
  constructor
  · intro config accepted
    obtain ⟨-, made⟩ := Tagged.madeFrom_ruleOfKind (Tagged.ruleOfKind_of_accepted accepted)
    exact ⟨made, made.lossless_iff, fun checks =>
      made.lossless_iff.mpr (Tagged.isList_of_checksLists accepted checks)⟩
  · intro config accepted
    obtain ⟨kind, isKind, read⟩ := Keyword.convert_eq_ok accepted
    obtain ⟨rfl, made⟩ := Keyword.madeFrom_ofKind read
    refine ⟨made, made.lossless_iff, fun static => made.lossless_iff.mpr ?_⟩
    rw [static] at isKind ⊢
    exact List.forall_mem_singleton.mpr (Keyword.isList_of_static isKind)

/-- A template whose variable has the values. -/
def blade (values : Value) : Fields :=
  [(.str "type", .str "template"), (.str "template", .str "%kind%"),
    (.str "variables", .map [(.str "kind", values)])]

theorem blade_is_lossless :
    Tagged.rule "blade" (.map (blade (.list [.str "sword"]))) =
        .ok (.template "%kind%" ⟨[("kind", [.str "sword"])]⟩) ∧
      Lossless (Tagged.sources (blade (.list [.str "sword"])) .template) [[.str "sword"]] ∧
      Keyword.convert none (.list [.str "sword"]) = .ok (.static [.str "sword"]) ∧
      Lossless (Keyword.sources (.list [.str "sword"]) .static) [[.str "sword"]] := by
  obtain ⟨tagged, keyword⟩ :=
    lists_of_accepted "blade" (blade (.list [.str "sword"])) none (.list [.str "sword"])
  obtain ⟨-, lossless, -⟩ := tagged _ rfl
  obtain ⟨-, -, static⟩ := keyword _ rfl
  exact ⟨rfl, lossless.mpr (by decide), rfl, static rfl⟩

/-- A word that stands where a list should be is accepted, and falls apart into its letters, in a
tagged rule and in a keyword rule. -/
theorem word_falls_apart :
    (∃ config, Tagged.rule "blade" (.map (blade (.str "saw"))) = .ok config ∧
      config.lists = [[.str "s", .str "a", .str "w"]] ∧
      ¬ Lossless (Tagged.sources (blade (.str "saw")) config.kind) config.lists) ∧
    ∃ config, Keyword.convert none (.map [(.str "sequence", .str "saw")]) = .ok config ∧
      config.lists = [[.str "s", .str "a", .str "w"]] ∧
      ¬ Lossless (Keyword.sources (.map [(.str "sequence", .str "saw")]) config.kind)
        config.lists := by
  refine ⟨⟨_, rfl, rfl, fun lossless => ?_⟩, ⟨_, rfl, rfl, fun lossless => ?_⟩⟩
  · cases lossless
  · cases lossless

end TextGrammar
