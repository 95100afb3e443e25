import TextGrammar.Config.Tagged
import TextGrammar.Proofs.Traversal

/-!
Forms of values: lists, texts and maps of lists, and what the readers of fields make of them.
-/

namespace TextGrammar

/-- The scalar can be a name: it has a text. -/
def Scalar.isName (key : Scalar) : Bool :=
  match key.text with
  | .ok _ => true
  | .error _ => false

theorem Scalar.isName_iff {key : Scalar} : key.isName = true ↔ ∃ name, key.text = .ok name := by
  unfold isName
  cases key.text <;> simp

namespace Value

def isList : Value → Bool
  | list _ => true
  | _ => false

def isText : Value → Bool
  | str _ => true
  | _ => false

/-- A map of which every value is a list under a name. -/
def isMapOfLists : Value → Bool
  | map entries => entries.all fun entry => entry.1.isName && entry.2.isList
  | _ => false

theorem isNull_iff {value : Value} : value.isNull = true ↔ value = .null := by
  unfold isNull
  split <;> simp_all

theorem truthy_str {text : String} : (str text).truthy = true ↔ text ≠ "" := by
  simp [truthy, Scalar.truthy]

theorem isList_iff {value : Value} : value.isList = true ↔ ∃ items, value = .list items := by
  cases value <;> simp [isList]

theorem isText_iff {value : Value} : value.isText = true ↔ ∃ text, value = .str text := by
  unfold isText
  split <;> simp_all

theorem isMapOfLists_iff {value : Value} : value.isMapOfLists = true ↔
    ∃ entries, value = .map entries ∧
      ∀ entry ∈ entries, entry.1.isName = true ∧ entry.2.isList = true := by
  cases value <;> simp [isMapOfLists]

end Value

/-! ### Reading fields -/

variable {fields : Fields} {key name : String} {value : Value}

theorem require_of_get (found : fields.get key = value) (given : value ≠ .null) :
    (Value.map fields).require key = .ok value := by
  unfold Fields.get at found
  cases present : fields.get? key with
  | none => exact (given (by simpa [present] using found.symm)).elim
  | some content => simpa [Value.require, present] using found

theorem lookup_map : (Value.map fields).lookup key = .ok (fields.get key) := rfl

theorem requireList_of_get {items : List Value}
    (found : fields.get key = .list items) : Tagged.requireList name fields key = .ok items := by
  simp [Tagged.requireList, found]

theorem requireNumber_of_get (found : fields.get key = value)
    (number : value.isNumber) : Tagged.requireNumber name fields key = .ok value := by
  subst found
  simp [Tagged.requireNumber, number]

theorem optionalNumber_of_get (found : fields.get key = value)
    (typed : value.isNull ∨ value.isNumber) :
    Tagged.optionalNumber name fields key = .ok value := by
  rcases typed with null | number
  · rw [Tagged.optionalNumber, found, Value.isNull_iff.mp null]
    rfl
  · have given : value.isNull = false := by
      cases value with
      | scalar content => cases content <;> first | rfl | cases number
      | list | map => rfl
    simp [Tagged.optionalNumber, found, given, requireNumber_of_get found number]

theorem requireList_eq_ok_iff {items : List Value} :
    Tagged.requireList name fields key = .ok items ↔ fields.get key = .list items := by
  unfold Tagged.requireList
  split
  · rename_i found
    simp [found]
  · rename_i other
    simpa using other items

theorem get_of_require {rule : Value} (found : rule.require key = .ok value) :
    rule.fieldsOrEmpty.get key = value := by
  cases rule with
  | scalar | list => cases found
  | map fields =>
    unfold Value.require at found
    cases present : Fields.get? fields key with
    | none =>
      simp only [present] at found
      cases found
    | some content =>
      simp only [present] at found
      cases found
      simp [Value.fieldsOrEmpty, Fields.get, present]

theorem get_of_lookup {rule : Value} (found : rule.lookup key = .ok value) :
    rule.fieldsOrEmpty.get key = value := by
  cases rule with
  | scalar | list => cases found
  | map fields => exact Except.ok.inj found

/-- An outcome without checked errors is the same among those that may have them. -/
theorem LoadError.liftM_eq_ok {α : Type} {step : Except Fault α} {given : α} :
    (liftM step : Except LoadError α) = .ok given ↔ step = .ok given := by
  constructor
  · intro same
    cases step with
    | ok other => exact congrArg _ (Except.ok.inj same)
    | error reason => cases same
  · rintro rfl
    rfl

theorem LoadError.liftM_eq_fault {α : Type} {step : Except Fault α} {reason : Fault} :
    (liftM step : Except LoadError α) = .error (.fault reason) ↔ step = .error reason := by
  constructor
  · intro same
    cases step with
    | ok given => cases same
    | error other =>
      cases same
      rfl
  · rintro rfl
    rfl

theorem LoadError.liftM_eq_mapError {α : Type} (step : Except Fault α) :
    (liftM step : Except LoadError α) = step.mapError .fault := by
  cases step <;> rfl

theorem RuleKind.ofName?_name (kind : RuleKind) : ofName? kind.name = some kind := by
  cases kind <;> decide

theorem RuleKind.name_injective {kind other : RuleKind} (same : kind.name = other.name) :
    kind = other := by
  have found := ofName?_name kind
  rw [same, ofName?_name other] at found
  exact (Option.some.inj found).symm

/-- A rule is read by the kind that its type names. -/
theorem rule_of_type {kind : RuleKind} (type : fields.get "type" = .str kind.name) :
    Tagged.rule name (.map fields) = Tagged.ruleOfKind name fields kind := by
  simp [Tagged.rule, type, RuleKind.ofName?_name]

/-- A rule whose type names no kind is refused. -/
theorem rule_of_no_type (unnamed : ∀ kind : RuleKind, fields.get "type" ≠ .str kind.name) :
    Tagged.rule name (.map fields) = .error (.ofRuleType (fields.get "type") name) := by
  simp only [Tagged.rule]
  split
  · rename_i kind named
    split at named
    · rename_i type given
      have same : kind.name = type := by simpa [RuleKind.ofName?] using List.find?_some named
      exact (unnamed kind (by rw [given, same])).elim
    · cases named
  · rfl

/-! ### Entries under their names -/

/-- The entries of a map with their keys as texts. -/
def Fields.named (entries : Fields) : Except Fault (List (String × Value)) :=
  entries.mapM fun entry => do return (← entry.1.text, entry.2)

theorem Fields.named_eq_ok_iff {entries : Fields} {pairs : List (String × Value)} :
    entries.named = .ok pairs ↔
      List.Forall₂ (fun entry pair => entry.1.text = .ok pair.1 ∧ entry.2 = pair.2)
        entries pairs := by
  rw [Fields.named, Effect.mapM_eq_ok_iff]
  refine iff_of_eq (congrArg (List.Forall₂ · entries pairs) ?_)
  funext entry pair
  obtain ⟨name, value⟩ := pair
  cases entry.1.text <;> simp

theorem binding_eq_ok_iff {entry : Scalar × Value} {pair : String × List Value} :
    Tagged.binding entry = .ok pair ↔
      entry.1.text = .ok pair.1 ∧ entry.2.elements = .ok pair.2 := by
  obtain ⟨name, items⟩ := pair
  rw [Tagged.binding, Effect.bind_eq_ok]
  simp [Effect.bind_eq_ok]

/-- Bindings are the values of the named entries, taken apart into their elements. -/
theorem exists_of_bindings_eq_ok {entries : Fields} {bindings : Table (List Value)}
    (bound : Tagged.bindings entries = .ok bindings) :
    ∃ pairs lists, Fields.named entries = .ok pairs ∧ bindings = Table.ofList lists ∧
      Table.Entrywise (fun value items => value.elements = .ok items) pairs lists := by
  obtain ⟨lists, traversed, given⟩ := Effect.bind_eq_ok.mp bound
  cases given
  have each := Effect.mapM_eq_ok_iff.mp traversed
  refine ⟨(entries.zip lists).map fun both => (both.2.1, both.1.2), lists, ?_, rfl, ?_⟩
  · rw [Fields.named_eq_ok_iff]
    clear bound traversed
    induction each with
    | nil => exact .nil
    | cons first behind ih => exact .cons ⟨(binding_eq_ok_iff.mp first).1, rfl⟩ ih
  · clear bound traversed
    induction each with
    | nil => exact .nil
    | cons first behind ih => exact .cons ⟨rfl, (binding_eq_ok_iff.mp first).2⟩ ih

/-- Rules under names are read one by one. -/
theorem mapM_ofEntry (read : String → Value → Except LoadError RuleConfig)
    (rules : List (String × Value)) :
    (rules.map fun entry => (Scalar.str entry.1, entry.2)).mapM (RuleConfig.ofEntry read) =
      (rules.mapM fun entry => read entry.1 entry.2).map fun configs =>
        (rules.map Prod.fst).zip configs := by
  rw [List.mapM_map]
  induction rules with
  | nil => rfl
  | cons entry rest ih =>
    rw [List.mapM_cons, List.mapM_cons, ih]
    show (read entry.1 entry.2 >>= _) >>= _ = _
    cases read entry.1 entry.2 with
    | error reason => rfl
    | ok config => cases rest.mapM fun entry => read entry.1 entry.2 <;> rfl

end TextGrammar
