import TextGrammar.Loading
import TextGrammar.Proofs.Config.Forms

/-!
Loading a document rule by rule, and loading the configuration that all of its rules are read into
first. Main statement: where there is such a configuration both are one step, so any engine gets the
same requests and the outcome is the same; and a document that is loaded to its end has one.
-/

namespace TextGrammar.Load

open Effect

variable {ε ω : Type}

/-- The document has these rules, under different texts as names. -/
structure Named (fields : Fields) (rules : List (String × Value)) : Prop where
  given : fields.get "rules" = .map (rules.map fun entry => (.str entry.1, entry.2))
  distinct : (rules.map Prod.fst).Nodup

/-- The configurations are what the rules are read as, in their order. -/
def ReadAs (rules : List (String × Value)) (configs : List RuleConfig) : Prop :=
  List.Forall₂ (fun entry config => Tagged.rule entry.1 entry.2 = .ok config) rules configs

/-! ### The checked form of a document -/

theorem nodup_names {fields : Fields} {rules : List (String × Value)} (named : Named fields rules)
    {configs : List RuleConfig} (read : ReadAs rules configs) :
    (((rules.map Prod.fst).zip configs).map Prod.fst).Nodup := by
  rw [List.map_fst_zip (by simp [read.length_eq])]
  exact named.distinct

/-- A document has a checked form exactly if its settings, its modifiers and all of its rules can be
read, and that holds the rules in their order. -/
theorem grammar_eq_ok_iff {fields : Fields} {rules : List (String × Value)}
    (named : Named fields rules) {config : GrammarConfig} :
    Tagged.grammar (.map fields) = .ok config ↔
      Settings.ofValue? (fields.get "settings") = .ok config.settings ∧
      modifierNames? (fields.get "modifiers") = .ok config.modifiers ∧
      ∃ configs, ReadAs rules configs ∧ config.rules = ⟨(rules.map Prod.fst).zip configs⟩ := by
  have tabled := mapM_ofEntry Tagged.rule rules
  simp only [Tagged.grammar, GrammarConfig.ofDocument, Value.fieldsOrEmpty, named.given]
  rw [tabled]
  constructor
  · intro read
    obtain ⟨pairs, rulesRead, read⟩ := bind_eq_ok.mp read
    obtain ⟨names?, modifiers, read⟩ := bind_eq_ok.mp read
    obtain ⟨settings?, settings, read⟩ := bind_eq_ok.mp read
    cases read
    refine ⟨settings, modifiers, ?_⟩
    cases traversed : rules.mapM fun entry => Tagged.rule entry.1 entry.2 with
    | error reason =>
      rw [traversed] at rulesRead
      cases rulesRead
    | ok configs =>
      rw [traversed] at rulesRead
      cases rulesRead
      have read : ReadAs rules configs := mapM_eq_ok_iff.mp traversed
      exact ⟨configs, read, Table.ofList_of_nodup (nodup_names named read)⟩
  · rintro ⟨settings, modifiers, configs, read, same⟩
    obtain ⟨table, names?, settings?⟩ := config
    have traversed : (rules.mapM fun entry => Tagged.rule entry.1 entry.2) = .ok configs :=
      mapM_eq_ok_iff.mpr read
    have same : table = ⟨(rules.map Prod.fst).zip configs⟩ := same
    rw [traversed, settings, modifiers, same, ← Table.ofList_of_nodup (nodup_names named read)]
    rfl

theorem ok_of_ofExcept {α : Type} {outcome : Except LoadError α} {value : α}
    {loading later : Loading ε} (given : ofExcept outcome loading = (.ok value, later)) :
    outcome = .ok value :=
  congrArg Prod.fst given

/-! ### Rules -/

variable [Performs ε ω]

/-- Rules that can be read are loaded as they are read. -/
theorem each_of_readAs (registry : Registry ω) {rules : List (String × Value)}
    {configs : List RuleConfig} (read : ReadAs rules configs) :
    (each (fun entry => taggedRule registry entry.1 entry.2) rules : Load ε Unit) =
      each (fun entry => rule registry entry.1 entry.2) ((rules.map Prod.fst).zip configs) := by
  induction read with
  | nil => rfl
  | @cons entry config rest configs first behind ih =>
    obtain ⟨name, value⟩ := entry
    have same : (taggedRule registry name value : Load ε Unit) = rule registry name config := by
      cases value with
      | scalar | list => cases first
      | map fields =>
        have first : Tagged.rule name (.map fields) = .ok config := first
        rw [taggedRule, first]
        rfl
    rw [each, same, ih]
    rfl

/-- Entries whose keys are texts are loaded under these. -/
theorem each_taggedEntry (registry : Registry ω) (rules : List (String × Value)) :
    (each (taggedEntry registry) (rules.map fun entry => (Scalar.str entry.1, entry.2)) :
      Load ε Unit) = each (fun entry => taggedRule registry entry.1 entry.2) rules := by
  induction rules with
  | nil => rfl
  | cons entry rest ih =>
    rw [List.map_cons, each, each, ih]
    rfl

/-- A rule that is loaded can be read. -/
theorem exists_config_of_loaded {registry : Registry ω} {name : String} {value : Value}
    {loading : Loading ε} (loaded : (taggedRule registry name value loading).1 = .ok ()) :
    ∃ config, Tagged.rule name value = .ok config := by
  cases value with
  | scalar | list => cases loaded
  | map fields =>
    obtain ⟨config, _, read, -⟩ := bind_fst_eq_ok_iff.mp loaded
    exact ⟨config, ok_of_ofExcept read⟩

/-- If all rules are loaded, all of them can be read. -/
theorem exists_readAs_of_loaded {registry : Registry ω} {rules : List (String × Value)}
    {loading : Loading ε}
    (loaded : (each (fun entry => taggedRule registry entry.1 entry.2) rules loading).1 = .ok ()) :
    ∃ configs, ReadAs rules configs := by
  induction rules generalizing loading with
  | nil => exact ⟨[], .nil⟩
  | cons entry rest ih =>
    obtain ⟨name, value⟩ := entry
    obtain ⟨_, later, first, behind⟩ := bind_fst_eq_ok_iff.mp loaded
    have firstLoaded : (taggedRule registry name value loading).1 = .ok () :=
      congrArg Prod.fst first
    obtain ⟨config, read⟩ := exists_config_of_loaded firstLoaded
    obtain ⟨configs, others⟩ := ih behind
    exact ⟨config :: configs, .cons read others⟩

/-- Where everything is loaded, so are the rules. -/
theorem each_of_parts_loaded {α : Type} {settings? : Option Settings}
    {names? : Option (List String)} {load : α → Load ε Unit} {rules : List α}
    {loading : Loading ε} (loaded : (parts settings? names? load rules loading).1 = .ok ()) :
    ∃ later, (each load rules later).1 = .ok () := by
  have behind {loading : Loading ε} (loaded : ((do
      modifiers (names?.getD [])
      each load rules
      report [⟨.info, .loading, s!"Loaded {rules.length} rule(s)"⟩] : Load ε Unit) loading).1 =
        .ok ()) : ∃ later, (each load rules later).1 = .ok () := by
    obtain ⟨_, before, -, loaded⟩ := bind_fst_eq_ok_iff.mp loaded
    obtain ⟨_, later, each, -⟩ := bind_fst_eq_ok_iff.mp loaded
    exact ⟨before, congrArg Prod.fst each⟩
  cases settings? with
  | none => exact behind loaded
  | some given =>
    obtain ⟨_, before, -, loaded⟩ := bind_fst_eq_ok_iff.mp loaded
    exact behind loaded

/-! ### Documents -/

theorem document_eq_grammar (registry : Registry ω) {fields : Fields}
    {rules : List (String × Value)} (named : Named fields rules) {config : GrammarConfig}
    (read : Tagged.grammar (.map fields) = .ok config) :
    (document registry (.map fields) : Load ε Unit) = grammar registry config := by
  obtain ⟨settings, modifiers, configs, readAs, same⟩ := (grammar_eq_ok_iff named).mp read
  have loaded := each_of_readAs (ε := ε) registry readAs
  have count : rules.length = ((rules.map Prod.fst).zip configs).length := by
    simp [readAs.length_eq]
  rw [document, settings, modifiers, named.given, grammar, same]
  show parts _ _ (taggedEntry registry) _ = _
  simp only [parts, each_taggedEntry, loaded, List.length_map, count]

/-- A document whose rules have different texts as names. If its checked form can be read, then
loading the document is loading that form, whatever the engine, with the same outcome and the same
notes. If the document is loaded to its end, its checked form can be read. -/
theorem loads_as_checked_form (registry : Registry ω) {fields : Fields}
    {rules : List (String × Value)} (named : Named fields rules) :
    (∀ config, Tagged.grammar (.map fields) = .ok config →
      (document registry (.map fields) : Load ε Unit) = grammar registry config) ∧
    ∀ loading : Loading ε, (document registry (.map fields) loading).1 = .ok () →
      ∃ config, Tagged.grammar (.map fields) = .ok config := by
  constructor
  · intro config read
    exact document_eq_grammar registry named read
  · intro loading loaded
    obtain ⟨settings?, _, settings, loaded⟩ := bind_fst_eq_ok_iff.mp loaded
    obtain ⟨names?, _, modifiers, loaded⟩ := bind_fst_eq_ok_iff.mp loaded
    rw [named.given] at loaded
    obtain ⟨later, loaded⟩ := each_of_parts_loaded loaded
    rw [each_taggedEntry] at loaded
    obtain ⟨configs, readAs⟩ := exists_readAs_of_loaded loaded
    refine ⟨⟨⟨(rules.map Prod.fst).zip configs⟩, names?, settings?⟩, ?_⟩
    apply (grammar_eq_ok_iff named).mpr
    exact ⟨ok_of_ofExcept settings, ok_of_ofExcept modifiers, configs, readAs, rfl⟩

/-- Two rules that can be loaded, and an entry without values, which is kept until it is loaded. -/
def unfinishedRules : List (String × Value) :=
  [("hero", .map [(.str "type", .str "static"), (.str "values", .list [.str "Ada"])]),
    ("mood", .map [(.str "type", .str "conditional"),
      (.str "conditions", .list [.map [(.str "if", .str "context.day == 'sunday'")]])]),
    ("place", .map [(.str "type", .str "static"), (.str "values", .list [.str "here"])])]

def unfinished : Fields :=
  [(.str "settings", .map [(.str "maxDepth", .int 3)]), (.str "modifiers", .str "tidy"),
    (.str "rules", .map (unfinishedRules.map fun entry => (.str entry.1, entry.2)))]

theorem unfinished_loads_as_checked_form :
    Named unfinished unfinishedRules ∧ ∃ config, Tagged.grammar (.map unfinished) = .ok config ∧
      (document (Table.empty : Registry Unit) (.map unfinished) : Load (Recorder Unit) Unit) =
        grammar .empty config := by
  have named : Named unfinished unfinishedRules := ⟨rfl, by decide⟩
  have read : ∃ config, Tagged.grammar (.map unfinished) = .ok config := ⟨_, rfl⟩
  obtain ⟨config, read⟩ := read
  obtain ⟨same, -⟩ := loads_as_checked_form (ε := Recorder Unit) (Table.empty : Registry Unit) named
  exact ⟨named, config, read, same config read⟩

end TextGrammar.Load
