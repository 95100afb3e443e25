import TextGrammar.Proofs.Keyword.TaggedForm

/-!
Reading keyword rules. A rule that fits a kind and whose fields have the right forms is read as the
same rule as its tagged form, one case for each kind; only a cycle setting that is no boolean is
left out there.
-/

namespace TextGrammar

/-- A boolean, or null instead of anything else. -/
def Value.orNull : Value → Value
  | bool value => .bool value
  | _ => .null

/-- The rule without a cycle setting that is no boolean. -/
def RuleConfig.plain : RuleConfig → RuleConfig
  | sequential values cycle => sequential values cycle.orNull
  | config => config

namespace Keyword

/-- The rule and its tagged form are both read, as the same rule. -/
def ReadsAlike (kind : RuleKind) (rule : Value) : Prop :=
  ∃ config, ofKind rule kind = .ok config ∧
    ∀ name, Tagged.rule name (tagged kind rule) = .ok config.plain

variable {fields : Fields} {key : String} {value : Value}

/-! ### Fields that are present -/

theorem ne_null_of_isPresent (present : isPresent value = true) : value ≠ .null := by
  rintro rfl
  cases present

theorem list_of_isPresent (typed : value.isNull ∨ value.isList) (present : isPresent value = true) :
    ∃ items, value = .list items :=
  typed.elim (fun null => (ne_null_of_isPresent present (Value.isNull_iff.mp null)).elim)
    Value.isList_iff.mp

theorem text_of_isPresent (typed : value.isNull ∨ value.isText) (present : isPresent value = true) :
    ∃ text, value = .str text ∧ text ≠ "" := by
  rcases typed with null | text
  · exact (ne_null_of_isPresent present (Value.isNull_iff.mp null)).elim
  · obtain ⟨content, rfl⟩ := Value.isText_iff.mp text
    exact ⟨content, rfl, by simpa [isPresent, Value.truthy, Scalar.truthy] using present⟩

/-! ### The kinds -/

theorem readsAlike_static (items : List Value) : ReadsAlike .static (.list items) :=
  ⟨.static items, rfl, fun _ => rfl⟩

theorem readsAlike_weighted (typed : FieldsTyped fields) (fit : fieldsFit fields .weighted) :
    ReadsAlike .weighted (.map fields) := by
  obtain ⟨valuesPresent, weightsPresent⟩ := Bool.and_eq_true_iff.mp fit
  obtain ⟨values, isValues⟩ := list_of_isPresent (typed.lists "values" (by simp)) valuesPresent
  obtain ⟨weights, isWeights⟩ := list_of_isPresent (typed.lists "weights" (by simp)) weightsPresent
  refine ⟨.weighted values weights, ?_, fun name => ?_⟩
  · simp only [ofKind, weighted, require_of_get isValues (by simp),
      require_of_get isWeights (by simp)]
    rfl
  · have valuesKept := get_taggedFields fields .weighted "values" "values" (by decide)
    have weightsKept := get_taggedFields fields .weighted "weights" "weights" (by decide)
    rw [tagged, rule_taggedFields]
    simp only [Tagged.ruleOfKind, requireList_of_get (valuesKept.trans isValues),
      requireList_of_get (weightsKept.trans isWeights)]
    rfl

theorem readsAlike_sequential (typed : FieldsTyped fields) (fit : fieldsFit fields .sequential) :
    ReadsAlike .sequential (.map fields) := by
  obtain ⟨values, isValues⟩ := list_of_isPresent (typed.lists "sequence" (by simp)) fit
  refine ⟨.sequential values (fields.get "cycle"), ?_, fun name => ?_⟩
  · simp only [ofKind, sequential, require_of_get isValues (by simp)]
    rfl
  · have valuesKept := get_taggedFields fields .sequential "sequence" "values" (by decide)
    have cycleKept := get_taggedFields fields .sequential "cycle" "cycle" (by decide)
    rw [tagged, rule_taggedFields]
    simp only [Tagged.ruleOfKind, requireList_of_get (valuesKept.trans isValues), cycleKept]
    rfl

theorem readsAlike_function (typed : FieldsTyped fields) (fit : fieldsFit fields .function) :
    ReadsAlike .function (.map fields) := by
  obtain ⟨function, isFunction, nonempty⟩ :=
    text_of_isPresent (typed.texts "function" (by simp)) fit
  refine ⟨.function function (Tagged.parameters? fields), ?_, fun name => ?_⟩
  · simp only [ofKind, Keyword.function, lookup_map, require_of_get isFunction (by simp)]
    rfl
  · have functionKept := get_taggedFields fields .function "function" "functionName" (by decide)
    have parametersKept :=
      get_taggedFields fields .function "parameters" "parameters" (by decide)
    rw [tagged, rule_taggedFields]
    simp only [Tagged.ruleOfKind, functionKept.trans isFunction, if_neg nonempty,
      Tagged.parameters?, parametersKept]
    rfl

/-- The type of the numbers is always a text. -/
theorem numberType_text (typed : FieldsTyped fields) : ∃ text, numberType fields = .str text := by
  unfold numberType
  split
  · rename_i given
    rcases typed.texts "type" (by simp) with null | text
    · rw [Value.isNull_iff.mp null] at given
      cases given
    · exact Value.isText_iff.mp text
  · exact ⟨"integer", rfl⟩

theorem ne_null_of_isNumber (number : value.isNumber) : value ≠ .null := by
  rintro rfl
  cases number

theorem readsAlike_range (typed : FieldsTyped fields) (fit : fieldsFit fields .range) :
    ReadsAlike .range (.map fields) := by
  obtain ⟨minNumber, maxNumber⟩ := Bool.and_eq_true_iff.mp fit
  refine ⟨.range (fields.get "min") (fields.get "max") (fields.get "step") (numberType fields),
    ?_, fun name => ?_⟩
  · simp only [ofKind, range, require_of_get rfl (ne_null_of_isNumber minNumber),
      require_of_get rfl (ne_null_of_isNumber maxNumber), lookup_map]
    rfl
  · have minKept := get_taggedFields fields .range "min" "min" (by decide)
    have maxKept := get_taggedFields fields .range "max" "max" (by decide)
    have stepKept := get_taggedFields fields .range "step" "step" (by decide)
    obtain ⟨type, isType⟩ := numberType_text typed
    rw [tagged, rule_taggedFields]
    simp only [Tagged.ruleOfKind, requireNumber_of_get minKept minNumber,
      requireNumber_of_get maxKept maxNumber, optionalNumber_of_get stepKept typed.step,
      get_numberType, isType]
    rfl

/-- Lists under names are bindings. -/
theorem exists_bindings {entries : Fields}
    (lists : ∀ entry ∈ entries, entry.1.isName ∧ entry.2.isList) :
    ∃ bindings, Tagged.bindings entries = .ok bindings := by
  cases traversed : entries.mapM Tagged.binding with
  | ok pairs => exact ⟨.ofList pairs, by rw [Tagged.bindings, traversed]; rfl⟩
  | error reason =>
    obtain ⟨entry, member, failed⟩ := Effect.exists_of_mapM_eq_error traversed
    obtain ⟨name, items⟩ := lists entry member
    obtain ⟨text, isText⟩ := Scalar.isName_iff.mp name
    obtain ⟨values, isValues⟩ := Value.isList_iff.mp items
    rw [Tagged.binding, isText, isValues] at failed
    cases failed

theorem readsAlike_template (typed : FieldsTyped fields) (fit : fieldsFit fields .template) :
    ReadsAlike .template (.map fields) := by
  obtain ⟨textPresent, variablesPresent⟩ := Bool.and_eq_true_iff.mp fit
  obtain ⟨text, isText, -⟩ := text_of_isPresent (typed.texts "template" (by simp)) textPresent
  have areLists : (fields.get "variables").isMapOfLists :=
    typed.bindings.resolve_left fun null =>
      ne_null_of_isPresent variablesPresent (Value.isNull_iff.mp null)
  obtain ⟨entries, isEntries, lists⟩ := Value.isMapOfLists_iff.mp areLists
  obtain ⟨bindings, bound⟩ := exists_bindings lists
  refine ⟨.template text bindings, ?_, fun name => ?_⟩
  · simp only [ofKind, template, require_of_get isText (by simp),
      require_of_get isEntries (by simp)]
    show (do return .template text (← Tagged.bindings entries) : Except Fault RuleConfig) = _
    rw [bound]
    rfl
  · have textKept := get_taggedFields fields .template "template" "template" (by decide)
    have variablesKept := get_taggedFields fields .template "variables" "variables" (by decide)
    rw [tagged, rule_taggedFields]
    simp only [Tagged.ruleOfKind, textKept.trans isText, variablesKept.trans isEntries, bound]
    rfl

/-! ### Conditional rules -/

/-- The entry for the values of the other case, if they are a list. -/
def defaults (fields : Fields) : List ConditionEntry :=
  match fields.get "else" with
  | .list values => [.default values]
  | _ => []

theorem mapM_defaultEntries (fields : Fields) :
    ((defaultEntries fields).mapM fun entry =>
      (liftM (Tagged.conditionEntry entry) : Except LoadError _)) = .ok (defaults fields) := by
  unfold defaultEntries defaults
  cases fields.get "else" <;> rfl

/-- The values of the other case are read if they are present. -/
theorem defaults_of_typed (typed : FieldsTyped fields) (guarded : ConditionEntry) :
    (do
      let fallback := fields.get "else"
      if isPresent fallback then
        return .conditional [guarded, .default (← fallback.elements)]
      else return .conditional [guarded] : Except Fault RuleConfig) =
      .ok (.conditional (guarded :: defaults fields)) := by
  unfold defaults
  rcases typed.lists "else" (by simp) with null | list
  · rw [Value.isNull_iff.mp null]
    rfl
  · obtain ⟨values, isValues⟩ := Value.isList_iff.mp list
    rw [isValues]
    rfl

/-- Both the condition and its values are there. -/
theorem conditionEntry_guarded {text : String} {values : List Value}
    (condition : fields.get "if" = .str text) (nonempty : text ≠ "")
    (guarded : fields.get "then" = .list values) :
    Tagged.conditionEntry (guardedEntry fields) = .ok (.guarded (.str text) (some values)) := by
  have truthy := Value.truthy_str.mpr nonempty
  simp only [Tagged.conditionEntry, guardedEntry, get_default_guardedEntry,
    get_guardedEntry fields (show "if" ∈ _ by simp),
    get_guardedEntry fields (show "then" ∈ _ by simp),
    condition, guarded, truthy]
  rfl

/-- The condition or its values are missing. -/
theorem conditionEntry_other
    (missing : (fields.get "if").truthy = false ∨ fields.get "then" = .null) :
    Tagged.conditionEntry (guardedEntry fields) = .ok (.other (guardedEntry fields)) := by
  simp only [Tagged.conditionEntry, guardedEntry, get_default_guardedEntry,
    get_guardedEntry fields (show "if" ∈ _ by simp),
    get_guardedEntry fields (show "then" ∈ _ by simp)]
  rcases missing with untrue | null
  · simp only [untrue]
    rfl
  · simp only [null]
    cases (fields.get "if").truthy <;> rfl

theorem ruleOfKind_conditional (name : String) {guarded : ConditionEntry}
    (read : Tagged.conditionEntry (guardedEntry fields) = .ok guarded) :
    Tagged.rule name (tagged .conditional (.map fields)) =
      .ok (.conditional (guarded :: defaults fields)) := by
  rw [tagged, rule_taggedFields, Tagged.ruleOfKind, requireList_of_get (get_conditions fields)]
  show (do
    let entries ← (guardedEntry fields :: defaultEntries fields).mapM fun entry =>
      (liftM (Tagged.conditionEntry entry) : Except LoadError _)
    return RuleConfig.conditional entries) = _
  rw [List.mapM_cons, read, mapM_defaultEntries]
  rfl

theorem readsAlike_conditional (typed : FieldsTyped fields) (fit : fieldsFit fields .conditional) :
    ReadsAlike .conditional (.map fields) := by
  obtain ⟨conditionPresent, valuesPresent⟩ := Bool.and_eq_true_iff.mp fit
  obtain ⟨text, isText, nonempty⟩ := text_of_isPresent (typed.texts "if" (by simp)) conditionPresent
  obtain ⟨values, isValues⟩ := list_of_isPresent (typed.lists "then" (by simp)) valuesPresent
  refine ⟨.conditional (.guarded (.str text) (some values) :: defaults fields), ?_, fun name =>
    ruleOfKind_conditional name (conditionEntry_guarded isText nonempty isValues)⟩
  rw [← defaults_of_typed typed]
  simp only [ofKind, conditional, require_of_get isText (by simp),
    require_of_get isValues (by simp), lookup_map]
  rfl

/-! ### Every kind -/

/-- A rule that fits a kind is read as its tagged form is. -/
theorem readsAlike {kind : RuleKind} {rule : Value} (typed : Typed rule) (fit : fits rule kind) :
    ReadsAlike kind rule := by
  cases rule with
  | scalar => cases typed
  | list items =>
    obtain rfl : kind = .static := by simpa [fits] using fit
    exact readsAlike_static items
  | map fields =>
    cases kind with
    | static => cases fit
    | conditional => exact readsAlike_conditional typed fit
    | weighted => exact readsAlike_weighted typed fit
    | range => exact readsAlike_range typed fit
    | template => exact readsAlike_template typed fit
    | sequential => exact readsAlike_sequential typed fit
    | function => exact readsAlike_function typed fit

end Keyword

end TextGrammar
