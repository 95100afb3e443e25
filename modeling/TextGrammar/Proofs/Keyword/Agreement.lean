import TextGrammar.Proofs.Keyword.Reading
import TextGrammar.Proofs.Loading.Materialised

/-!
Loading keyword rules is loading their tagged forms: whole documents, and single rules that are
read as one of a kind. The steps are equal, so any engine gets the same requests, and outcome and
notes are the same.
-/

namespace TextGrammar.Keyword

open Load

variable {ε ω : Type}

/-! ### Single rules -/

/-- The document with a single rule. -/
def singleton (name : String) (rule : Value) : Value :=
  .map [(.str "rules", .map [(.str name, rule)])]

theorem registration_plain (registry : Registry ω) (name : String) (config : RuleConfig) :
    (registration registry name config.plain : Load ε (Registration ω)) =
      registration registry name config := by
  cases config with
  | sequential values cycle =>
    cases cycle with
    | scalar content => cases content <;> rfl
    | list | map => rfl
  | _ => rfl

variable [Performs ε ω]

theorem rule_plain (registry : Registry ω) (name : String) (config : RuleConfig) :
    (rule registry name config.plain : Load ε Unit) = rule registry name config := by
  have kind : config.plain.kind = config.kind := by cases config <;> rfl
  simp only [rule, registration_plain, kind]

theorem taggedRule_eq (registry : Registry ω) {name : String} {fields : Fields}
    {config : RuleConfig} (read : Tagged.rule name (.map fields) = .ok config) :
    (taggedRule registry name (.map fields) : Load ε Unit) = rule registry name config := by
  rw [taggedRule, read]
  rfl

variable (ε) in
/-- A rule that fits a kind is read, and loading its tagged form loads what was read. -/
theorem exists_config (registry : Registry ω) {kind : RuleKind} {value : Value}
    (typed : Typed value) (fit : fits value kind) :
    ∃ config, ofKind value kind = .ok config ∧ ∀ name,
      (taggedRule registry name (tagged kind value) : Load ε Unit) = rule registry name config := by
  obtain ⟨config, read, readTagged⟩ := readsAlike typed fit
  refine ⟨config, read, fun name => ?_⟩
  rw [← rule_plain]
  cases value with
  | scalar => cases typed
  | list | map => exact taggedRule_eq registry (readTagged name)

theorem document_singleton (registry : Registry ω) (name : String) (value : Value) :
    (document registry (singleton name value) : Load ε Unit) =
      parts none none (taggedEntry registry) [(.str name, value)] := rfl

theorem single_of_read (registry : Registry ω) {name : String} {kind : RuleKind} {value : Value}
    {config : RuleConfig} (read : partsOfKind value kind = .ok config) :
    (single registry name kind value : Load ε Unit) =
      parts none none (fun entry => rule registry entry.1 entry.2) [(name, config)] := by
  rw [single, read]
  rfl

omit [Performs ε ω] in
theorem partsOfKind_of_ne {kind : RuleKind} {value : Value} (other : kind ≠ .conditional) :
    partsOfKind value kind = ofKind value kind := by
  cases kind with
  | conditional => exact (other rfl).elim
  | _ => rfl

theorem parts_congr {α β : Type} {settings? : Option Settings} {names? : Option (List String)}
    {load : α → Load ε Unit} {load' : β → Load ε Unit} {rules : List α} {rules' : List β}
    (same : each load rules = each load' rules') (count : rules.length = rules'.length) :
    parts settings? names? load rules = parts settings? names? load' rules' := by
  simp only [parts, same, count]

/-! ### Documents -/

omit [Performs ε ω] in
theorem convert_of_read {name : Option String} {value : Value} {kind : RuleKind}
    {config : RuleConfig} (isKind : kind? value = some kind)
    (read : ofKind value kind = .ok config) : convert name value = .ok config := by
  rw [convert, classify, isKind]
  show (liftM (ofKind value kind) : Except LoadError RuleConfig) = _
  rw [read]
  rfl

variable (ε) in
/-- The rules are converted, and loading their tagged forms loads the converted rules. -/
theorem exists_configs (registry : Registry ω) {rules : List (String × Value)}
    (typed : ∀ entry ∈ rules, Typed entry.2) (shaped : ∀ entry ∈ rules, (kind? entry.2).isSome) :
    ∃ configs, List.Forall₂ (fun entry config => convert (some entry.1) entry.2 = .ok config)
        rules configs ∧
      (each (taggedEntry registry)
          (rules.map fun entry => (Scalar.str entry.1, taggedForm entry.2)) : Load ε Unit) =
        each (fun entry => rule registry entry.1 entry.2) ((rules.map Prod.fst).zip configs) := by
  induction rules with
  | nil => exact ⟨[], .nil, rfl⟩
  | cons entry rest ih =>
    obtain ⟨configs, converted, loaded⟩ := ih
      (fun other member => typed other (List.mem_cons_of_mem entry member))
      (fun other member => shaped other (List.mem_cons_of_mem entry member))
    obtain ⟨kind, isKind⟩ := Option.isSome_iff_exists.mp (shaped entry List.mem_cons_self)
    have fit : fits entry.2 kind = true := List.find?_some isKind
    obtain ⟨config, read, same⟩ :=
      exists_config ε registry (typed entry List.mem_cons_self) fit
    have form : taggedForm entry.2 = tagged kind entry.2 := by simp only [taggedForm, isKind]
    refine ⟨config :: configs, .cons (convert_of_read isKind read) converted, ?_⟩
    have first : (taggedEntry registry (.str entry.1, taggedForm entry.2) : Load ε Unit) =
        rule registry entry.1 config := by
      rw [form]
      exact same entry.1
    simp only [List.map_cons, List.zip_cons_cons, each, loaded, first]

/-- A keyword document with its rules in their tagged form. -/
def taggedDocument (fields : Fields) (rules : List (String × Value)) : Value :=
  .map (fields.put (.str "rules")
    (.map (rules.map fun entry => (.str entry.1, taggedForm entry.2))))

theorem grammar_eq {fields : Fields} {rules : List (String × Value)} {configs : List RuleConfig}
    {settings? : Option Settings} {names? : Option (List String)}
    (settings : Settings.ofValue? (fields.get "settings") = .ok settings?)
    (modifiers : modifierNames? (fields.get "modifiers") = .ok names?)
    (given : fields.get "rules" = .map (rules.map fun entry => (.str entry.1, entry.2)))
    (distinct : (rules.map Prod.fst).Nodup)
    (converted : List.Forall₂ (fun entry config => convert (some entry.1) entry.2 = .ok config)
      rules configs) :
    grammar (.map fields) = .ok ⟨⟨(rules.map Prod.fst).zip configs⟩, names?, settings?⟩ := by
  have traversed : (rules.mapM fun entry => convert (some entry.1) entry.2) = .ok configs :=
    Effect.mapM_eq_ok_iff.mpr converted
  have named : (((rules.map Prod.fst).zip configs).map Prod.fst).Nodup := by
    rw [List.map_fst_zip (by simp [converted.length_eq])]
    exact distinct
  have read := mapM_ofEntry (fun name => convert (some name)) rules
  rw [traversed] at read
  simp only [grammar, GrammarConfig.ofDocument, Value.fieldsOrEmpty, given, settings, modifiers]
  rw [read, ← Table.ofList_of_nodup named]
  rfl

/-- A document of keyword rules with different names, each of which has a shape and fields of the
right forms, and whose settings and modifiers can be read. -/
structure WellFormed (fields : Fields) (rules : List (String × Value)) : Prop where
  settings : ∃ settings?, Settings.ofValue? (fields.get "settings") = .ok settings?
  modifiers : ∃ names?, modifierNames? (fields.get "modifiers") = .ok names?
  given : fields.get "rules" = .map (rules.map fun entry => (.str entry.1, entry.2))
  distinct : (rules.map Prod.fst).Nodup
  typed : ∀ entry ∈ rules, Typed entry.2
  shaped : ∀ entry ∈ rules, (kind? entry.2).isSome

theorem keywords_eq_document (registry : Registry ω) {fields : Fields}
    {rules : List (String × Value)} (wellFormed : WellFormed fields rules) :
    (keywords registry (.map fields) : Load ε Unit) =
      document registry (taggedDocument fields rules) := by
  obtain ⟨settings?, settings⟩ := wellFormed.settings
  obtain ⟨names?, modifiers⟩ := wellFormed.modifiers
  obtain ⟨configs, converted, loaded⟩ :=
    exists_configs ε registry wellFormed.typed wellFormed.shaped
  let changed := fields.put (.str "rules")
    (.map (rules.map fun entry => (.str entry.1, taggedForm entry.2)))
  have sameSettings : Fields.get changed "settings" = fields.get "settings" := by
    simp [changed, Fields.get, Fields.get?_put]
  have sameModifiers : Fields.get changed "modifiers" = fields.get "modifiers" := by
    simp [changed, Fields.get, Fields.get?_put]
  have newRules : Fields.get changed "rules" =
      .map (rules.map fun entry => (.str entry.1, taggedForm entry.2)) := by
    simp [changed, Fields.get, Fields.get?_put]
  calc (keywords registry (.map fields) : Load ε Unit)
    _ = parts settings? names? (fun entry => rule registry entry.1 entry.2)
          ((rules.map Prod.fst).zip configs) := by
      rw [keywords, grammar_eq settings modifiers wellFormed.given wellFormed.distinct converted]
      rfl
    _ = parts settings? names? (taggedEntry registry)
          (rules.map fun entry => (.str entry.1, taggedForm entry.2)) :=
      parts_congr loaded.symm (by simp [converted.length_eq])
    _ = document registry (.map changed) := by
      rw [document, sameSettings, sameModifiers, settings, modifiers, newRules]
      rfl

/-! ### Rules that are read as one of a kind -/

/-- Entries that make the same branch are loaded alike. -/
theorem rule_of_same_branch (registry : Registry ω) (name : String) {first other : ConditionEntry}
    (rest : List ConditionEntry) (same : branch name 0 first = branch name 0 other) :
    (rule registry name (.conditional (first :: rest)) : Load ε Unit) =
      rule registry name (.conditional (other :: rest)) := by
  simp only [rule, registration, branches, same]
  rfl

variable (ε) in
/-- Whatever a conditional rule lacks, loading what is read of its parts is loading its tagged
form. -/
theorem exists_parts (registry : Registry ω) {fields : Fields} (typed : FieldsTyped fields) :
    ∃ config, partsOfKind (.map fields) .conditional = .ok config ∧ ∀ name,
      (taggedRule registry name (tagged .conditional (.map fields)) : Load ε Unit) =
        rule registry name config := by
  let condition := if (fields.get "if").truthy then fields.get "if" else .str ""
  rcases typed.lists "then" (by simp) with null | list
  · have noValues := Value.isNull_iff.mp null
    refine ⟨.conditional (.guarded condition none :: defaults fields), ?_, fun name => ?_⟩
    · rw [← defaults_of_typed typed]
      simp only [partsOfKind, conditionalParts, lookup_map, noValues]
      rfl
    · have read := ruleOfKind_conditional name (conditionEntry_other (.inr noValues))
      exact (taggedRule_eq registry read).trans (rule_of_same_branch registry name _ rfl)
  · obtain ⟨values, isValues⟩ := Value.isList_iff.mp list
    refine ⟨.conditional (.guarded condition (some values) :: defaults fields), ?_, fun name => ?_⟩
    · rw [← defaults_of_typed typed]
      simp only [partsOfKind, conditionalParts, lookup_map, isValues]
      rfl
    · by_cases truthy : (fields.get "if").truthy
      · have present : isPresent (fields.get "if") := by
          unfold isPresent
          split
          · rfl
          · rfl
          · exact truthy
        obtain ⟨text, isText, nonempty⟩ := text_of_isPresent (typed.texts "if" (by simp)) present
        have read := ruleOfKind_conditional name (conditionEntry_guarded isText nonempty isValues)
        have same : condition = .str text := by simp only [condition, if_pos truthy, isText]
        rw [same]
        exact taggedRule_eq registry read
      · have untrue : (fields.get "if").truthy = false := by simpa using truthy
        have read := ruleOfKind_conditional name (conditionEntry_other (.inl untrue))
        have empty : condition = .str "" := by simp only [condition, if_neg truthy]
        rw [empty]
        exact (taggedRule_eq registry read).trans (rule_of_same_branch registry name _ rfl)

/-! ### The front ends agree -/

variable (ε) in
/-- Keyword rules are loaded as their tagged forms: a well-formed document, a rule that is read as
one of a kind that it fits, and a conditional rule that is read from parts of which some may be
missing. -/
theorem loads_as_tagged (registry : Registry ω) :
    (∀ fields rules, WellFormed fields rules →
      (keywords registry (.map fields) : Load ε Unit) =
        document registry (taggedDocument fields rules)) ∧
    (∀ name kind value, Typed value → fits value kind →
      (single registry name kind value : Load ε Unit) =
        document registry (singleton name (tagged kind value))) ∧
    (∀ name fields, FieldsTyped fields →
      (single registry name .conditional (.map fields) : Load ε Unit) =
        document registry (singleton name (tagged .conditional (.map fields)))) := by
  have parts : ∀ name fields, FieldsTyped fields →
      (single registry name .conditional (.map fields) : Load ε Unit) =
        document registry (singleton name (tagged .conditional (.map fields))) := by
    intro name fields typed
    obtain ⟨config, read, same⟩ := exists_parts ε registry typed
    rw [single_of_read registry read, document_singleton]
    have first : (taggedEntry registry (.str name, tagged .conditional (.map fields)) :
        Load ε Unit) = rule registry name config := same name
    exact parts_congr (by simp only [each, first]) rfl
  refine ⟨fun _ _ wellFormed => keywords_eq_document registry wellFormed, ?_, parts⟩
  intro name kind value typed fit
  by_cases conditional : kind = .conditional
  · subst conditional
    cases value with
    | scalar => cases typed
    | list => cases fit
    | map fields => exact parts name fields typed
  · obtain ⟨config, read, same⟩ := exists_config ε registry typed fit
    rw [single_of_read registry ((partsOfKind_of_ne conditional).trans read), document_singleton]
    have first : (taggedEntry registry (.str name, tagged kind value) : Load ε Unit) =
        rule registry name config := same name
    exact parts_congr (by simp only [each, first]) rfl

/-- A rule that depends on the context. -/
def mood : Fields :=
  [(.str "if", .str "context.day == 'sunday'"), (.str "then", .list [.str "calm"]),
    (.str "else", .list [.str "busy"])]

def greetingRules : List (String × Value) := [("hero", .list [.str "Ada"]), ("mood", .map mood)]

def greeting : Fields :=
  [(.str "rules", .map (greetingRules.map fun entry => (.str entry.1, entry.2)))]

/-- The document, its second rule as one that it fits, and the same rule without its condition. -/
theorem greeting_loads_as_tagged :
    (WellFormed greeting greetingRules ∧
      (keywords (Table.empty : Registry Unit) (.map greeting) : Load (Recorder Unit) Unit) =
        document .empty (taggedDocument greeting greetingRules)) ∧
    (fits (.map mood) .conditional ∧
      (single (Table.empty : Registry Unit) "mood" .conditional (.map mood) :
        Load (Recorder Unit) Unit) =
          document .empty (singleton "mood" (tagged .conditional (.map mood)))) ∧
    FieldsTyped mood.tail ∧
      (single (Table.empty : Registry Unit) "mood" .conditional (.map mood.tail) :
        Load (Recorder Unit) Unit) =
          document .empty (singleton "mood" (tagged .conditional (.map mood.tail))) := by
  have typed : FieldsTyped mood := ⟨by decide, by decide, by decide, by decide⟩
  have partTyped : FieldsTyped mood.tail := ⟨by decide, by decide, by decide, by decide⟩
  have wellFormed : WellFormed greeting greetingRules :=
    { settings := ⟨none, rfl⟩
      modifiers := ⟨none, rfl⟩
      given := rfl
      distinct := by decide
      typed := by
        intro entry member
        simp only [greetingRules, List.mem_cons, List.not_mem_nil, or_false] at member
        rcases member with rfl | rfl
        · trivial
        · exact typed
      shaped := by decide }
  have fit : fits (.map mood) .conditional = true := by decide
  obtain ⟨documents, rules, parts⟩ := loads_as_tagged (Recorder Unit) .empty
  exact ⟨⟨wellFormed, documents _ _ wellFormed⟩, ⟨fit, rules _ _ _ typed fit⟩, partTyped,
    parts _ _ partTyped⟩

end TextGrammar.Keyword
