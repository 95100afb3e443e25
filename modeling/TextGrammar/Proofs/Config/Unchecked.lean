import TextGrammar.Proofs.Condition.Faults
import TextGrammar.Proofs.Config.Lists
import TextGrammar.Proofs.Value.Short

/-!
Faults of configurations that hold no number with too many digits: what the checks of documents do
not find. Reading a rule has a fault exactly if a value without elements stands in the place of a
list, reading settings exactly if one of them is infinite, and reading modifiers exactly if they
have no elements.
-/

namespace TextGrammar

/-! ### Values -/

/-- A value that has no elements. -/
def Value.Lacks (value : Value) : Prop := value.elements = .error .notIterable

theorem Value.elements_eq_error_iff {value : Value} {reason : Fault} :
    value.elements = .error reason ↔ reason = .notIterable ∧ value.Lacks := by
  unfold Lacks elements
  split <;> simp [eq_comm]

def Value.IsInfinite (value : Value) : Prop := ∃ negative, value = .real (.infinity negative)

theorem Value.toInt_eq_infinite_iff {value : Value} :
    value.toInt = .error .infinite ↔ value.IsInfinite := by
  constructor
  · intro failed
    cases value with
    | list | map => cases failed
    | scalar content =>
      cases content with
      | null | bool | stamp => cases failed
      | str | binary =>
        simp only [toInt, spelling?] at failed
        split at failed <;> cases failed
      | number content =>
        cases content with
        | int => cases failed
        | real content =>
          cases content with
          | infinity negative => exact ⟨negative, rfl⟩
          | _ => cases failed
  · rintro ⟨negative, rfl⟩
    rfl

/-- An error whose wording shows a text that there is is one of those that are checked for. -/
theorem LoadError.showing_ne_fault {error : String → LoadError} {shown : Except Fault String}
    (checked : ∀ text, (error text).isChecked = true) (given : ∃ text, shown = .ok text)
    {reason : Fault} : showing error shown ≠ .fault reason := by
  obtain ⟨text, rfl⟩ := given
  intro same
  have impossible := checked text
  rw [show error text = .fault reason from same] at impossible
  cases impossible

/-! ### Rules -/

/-- A value without elements stands in the place of a list of a rule of a kind: in an entry of a
conditional rule, or as the values of a variable. -/
inductive LacksValues (fields : Fields) : RuleKind → Prop where
  | entry {entries : List Value} {entry source : Value}
      (given : fields.get "conditions" = .list entries) (member : entry ∈ entries)
      (listed : source ∈ Tagged.entrySources entry) (lacks : source.Lacks) :
      LacksValues fields .conditional
  | binding {text : String} {entries : Fields} {entry : Scalar × Value}
      (template : fields.get "template" = .str text)
      (given : fields.get "variables" = .map entries) (member : entry ∈ entries)
      (lacks : entry.2.Lacks) : LacksValues fields .template

namespace Tagged

theorem requireList_ne_fault {name key : String} {fields : Fields} {reason : Fault} :
    requireList name fields key ≠ .error (.fault reason) := by
  intro failed
  unfold requireList at failed
  split at failed <;> cases failed

theorem requireNumber_ne_fault {name key : String} {fields : Fields} {reason : Fault} :
    requireNumber name fields key ≠ .error (.fault reason) := by
  intro failed
  unfold requireNumber at failed
  split at failed <;> cases failed

theorem optionalNumber_ne_fault {name key : String} {fields : Fields} {reason : Fault} :
    optionalNumber name fields key ≠ .error (.fault reason) := by
  intro failed
  unfold optionalNumber at failed
  split at failed
  · cases failed
  · exact requireNumber_ne_fault failed

theorem conditionEntry_eq_error_iff {value : Value} (short : value.Short) {reason : Fault} :
    conditionEntry value = .error reason ↔
      reason = .notIterable ∧ ∃ source ∈ entrySources value, source.Lacks := by
  cases value with
  | scalar | list => simp [conditionEntry, entrySources]
  | map fields =>
    have made {source : Value} (make : List Value → ConditionEntry) :
        (do return make (← source.elements) : Except Fault ConditionEntry) = .error reason ↔
          reason = .notIterable ∧ source.Lacks := by
      rw [Effect.bind_eq_error, ← Value.elements_eq_error_iff]
      simp
    obtain ⟨condition, shown⟩ := (short.get "if").text
    simp only [conditionEntry, entrySources, shown]
    split
    · simpa using made .default
    · split
      · have guarded : (do
            return .guarded (.str condition) (some (← (Fields.get fields "then").elements)) :
              Except Fault ConditionEntry) = .error reason ↔ _ :=
          made fun values => .guarded (.str condition) (some values)
        exact guarded.trans (by simp)
      · simp

theorem binding_eq_error_iff {entry : Scalar × Value} (short : entry.1.Short) {reason : Fault} :
    binding entry = .error reason ↔ reason = .notIterable ∧ entry.2.Lacks := by
  obtain ⟨name, key⟩ := short.text
  rw [binding, key, ← Value.elements_eq_error_iff]
  cases entry.2.elements <;> simp

theorem bindings_eq_error_iff {entries : Fields} (short : (Value.map entries).Short)
    {reason : Fault} : bindings entries = .error reason ↔
      reason = .notIterable ∧ ∃ entry ∈ entries, entry.2.Lacks := by
  have failed : bindings entries = .error reason ↔ entries.mapM binding = .error reason := by
    rw [bindings, Effect.bind_eq_error]
    simp
  rw [failed]
  constructor
  · intro traversed
    obtain ⟨entry, member, unmade⟩ := Effect.exists_of_mapM_eq_error traversed
    obtain ⟨rfl, lacks⟩ := (binding_eq_error_iff (short.entries entry member).1).mp unmade
    exact ⟨rfl, entry, member, lacks⟩
  · rintro ⟨rfl, entry, member, lacks⟩
    have only (other : Scalar × Value) (present : other ∈ entries) (reason : Fault)
        (unmade : binding other = .error reason) : reason = .notIterable :=
      ((binding_eq_error_iff (short.entries other present).1).mp unmade).1
    refine (Effect.mapM_eq_error_iff only).mpr ⟨entry, member, ?_⟩
    exact (binding_eq_error_iff (short.entries entry member).1).mpr ⟨rfl, lacks⟩

/-- The entries of a conditional rule, read one after the other. -/
theorem conditional_eq_ok_iff {name : String} {fields : Fields} {configs : List ConditionEntry} :
    ruleOfKind name fields .conditional = .ok (.conditional configs) ↔
      ∃ entries, fields.get "conditions" = .list entries ∧
        entries.mapM conditionEntry = .ok configs := by
  have traversed (entries : List Value) :
      (entries.mapM fun entry => (liftM (conditionEntry entry) : Except LoadError _)) =
        .ok configs ↔ entries.mapM conditionEntry = .ok configs := by
    simp only [Effect.mapM_eq_ok_iff, LoadError.liftM_eq_ok]
  simp only [ruleOfKind, Effect.bind_eq_ok, requireList_eq_ok_iff]
  constructor
  · rintro ⟨entries, given, others, read, made⟩
    cases made
    exact ⟨entries, given, (traversed entries).mp read⟩
  · rintro ⟨entries, given, read⟩
    exact ⟨entries, given, configs, (traversed entries).mpr read, rfl⟩

theorem conditional_eq_fault_iff {name : String} {fields : Fields}
    (short : (Value.map fields).Short) {reason : Fault} :
    ruleOfKind name fields .conditional = .error (.fault reason) ↔
      reason = .notIterable ∧ LacksValues fields .conditional := by
  have each {entries : List Value} (given : fields.get "conditions" = .list entries) :
      ∀ entry ∈ entries, entry.Short := by
    have listed := short.get "conditions"
    rw [given] at listed
    exact listed.elements rfl
  constructor
  · intro failed
    rcases Effect.bind_eq_error.mp failed with unlisted | ⟨entries, listed, failed⟩
    · exact (requireList_ne_fault unlisted).elim
    · rcases Effect.bind_eq_error.mp failed with traversed | ⟨configs, -, made⟩
      · obtain ⟨entry, member, unread⟩ := Effect.exists_of_mapM_eq_error traversed
        have given := requireList_eq_ok_iff.mp listed
        obtain ⟨rfl, source, of, lacks⟩ :=
          (conditionEntry_eq_error_iff (each given entry member)).mp
            (LoadError.liftM_eq_fault.mp unread)
        exact ⟨rfl, .entry given member of lacks⟩
      · cases made
  · rintro ⟨rfl, lacking⟩
    cases lacking with
    | entry given member listed lacks =>
      rename_i entries entry source
      have unread : conditionEntry entry = .error .notIterable :=
        (conditionEntry_eq_error_iff (each given entry member)).mpr ⟨rfl, source, listed, lacks⟩
      have only (other : Value) (present : other ∈ entries) (error : LoadError)
          (failed : (liftM (conditionEntry other) : Except LoadError _) = .error error) :
          error = .fault .notIterable := by
        cases found : conditionEntry other with
        | ok config =>
          rw [found] at failed
          cases failed
        | error reason =>
          rw [found] at failed
          cases failed
          rw [((conditionEntry_eq_error_iff (each given other present)).mp found).1]
      refine Effect.bind_eq_error.mpr (.inr ⟨entries, requireList_eq_ok_iff.mpr given, ?_⟩)
      refine Effect.bind_eq_error.mpr (.inl ((Effect.mapM_eq_error_iff only).mpr ?_))
      exact ⟨entry, member, LoadError.liftM_eq_fault.mpr unread⟩

theorem template_eq_fault_iff {name : String} {fields : Fields} (short : (Value.map fields).Short)
    {reason : Fault} : ruleOfKind name fields .template = .error (.fault reason) ↔
      reason = .notIterable ∧ LacksValues fields .template := by
  have each {entries : Fields} (given : fields.get "variables" = .map entries) :
      (Value.map entries).Short := by
    have mapped := short.get "variables"
    rwa [given] at mapped
  constructor
  · intro failed
    simp only [ruleOfKind] at failed
    split at failed
    · rename_i text template
      split at failed
      · rename_i entries given
        rcases Effect.bind_eq_error.mp failed with unbound | ⟨bindings, -, made⟩
        · obtain ⟨rfl, entry, member, lacks⟩ :=
            (bindings_eq_error_iff (each given)).mp (LoadError.liftM_eq_fault.mp unbound)
          exact ⟨rfl, .binding template given member lacks⟩
        · cases made
      · cases failed
    · cases failed
  · rintro ⟨rfl, lacking⟩
    cases lacking with
    | binding template given member lacks =>
      have unbound := (bindings_eq_error_iff (each given)).mpr ⟨rfl, _, member, lacks⟩
      simp only [ruleOfKind, template, given]
      exact Effect.bind_eq_error.mpr (.inl (LoadError.liftM_eq_fault.mpr unbound))

/-- Rules of the other kinds are read without faults. -/
theorem ruleOfKind_ne_fault {name : String} {fields : Fields} {kind : RuleKind} {reason : Fault}
    (unconditional : kind ≠ .conditional) (noTemplate : kind ≠ .template) :
    ruleOfKind name fields kind ≠ .error (.fault reason) := by
  intro failed
  cases kind with
  | conditional => exact unconditional rfl
  | template => exact noTemplate rfl
  | static | sequential =>
    rcases Effect.bind_eq_error.mp failed with unlisted | ⟨values, -, made⟩
    · exact requireList_ne_fault unlisted
    · cases made
  | function =>
    simp only [ruleOfKind] at failed
    split at failed
    · split at failed <;> cases failed
    · cases failed
  | weighted =>
    rcases Effect.bind_eq_error.mp failed with unlisted | ⟨values, -, failed⟩
    · exact requireList_ne_fault unlisted
    · rcases Effect.bind_eq_error.mp failed with unlisted | ⟨weights, -, made⟩
      · exact requireList_ne_fault unlisted
      · cases made
  | range =>
    rcases Effect.bind_eq_error.mp failed with unread | ⟨min, -, failed⟩
    · exact requireNumber_ne_fault unread
    · rcases Effect.bind_eq_error.mp failed with unread | ⟨max, -, failed⟩
      · exact requireNumber_ne_fault unread
      · rcases Effect.bind_eq_error.mp failed with unread | ⟨step, -, made⟩
        · exact optionalNumber_ne_fault unread
        · cases made

/-- Reading the fields of a rule has a fault exactly for a value without elements. -/
theorem ruleOfKind_eq_fault_iff {name : String} {fields : Fields}
    (short : (Value.map fields).Short) {kind : RuleKind} {reason : Fault} :
    ruleOfKind name fields kind = .error (.fault reason) ↔
      reason = .notIterable ∧ LacksValues fields kind := by
  by_cases conditional : kind = .conditional
  · subst conditional
    exact conditional_eq_fault_iff short
  · by_cases template : kind = .template
    · subst template
      exact template_eq_fault_iff short
    · refine iff_of_false (ruleOfKind_ne_fault conditional template) ?_
      rintro ⟨-, lacks⟩
      cases lacks with
      | entry => exact conditional rfl
      | binding => exact template rfl

/-- A guard that is read from an entry is a text. -/
theorem exists_text_of_guarded {value condition : Value} {values : List Value}
    (read : conditionEntry value = .ok (.guarded condition (some values))) :
    ∃ text, condition = .str text := by
  cases value with
  | scalar | list => cases read
  | map fields =>
    simp only [conditionEntry] at read
    split at read
    · obtain ⟨others, -, made⟩ := Effect.bind_eq_ok.mp read
      cases made
    · split at read
      · obtain ⟨text, -, read⟩ := Effect.bind_eq_ok.mp read
        obtain ⟨others, -, made⟩ := Effect.bind_eq_ok.mp read
        cases made
        exact ⟨text, rfl⟩
      · cases read

end Tagged

/-! ### Settings and modifiers -/

theorem Settings.integer?_eq_fault_iff {name : String} {value : Value} (short : value.Short)
    {reason : Fault} :
    integer? name value = .error (.fault reason) ↔ reason = .infinite ∧ value.IsInfinite := by
  constructor
  · intro failed
    unfold integer? at failed
    split at failed
    · cases failed
    · split at failed
      · cases failed
      · rename_i infinite
        cases failed
        exact ⟨rfl, Value.toInt_eq_infinite_iff.mp infinite⟩
      · have error := Except.error.inj failed
        exact (LoadError.showing_ne_fault (fun _ => rfl) short.quoted error).elim
  · rintro ⟨rfl, negative, rfl⟩
    rfl

theorem Settings.short_of_integer? {name : String} {value : Value} (short : value.Short)
    {whole : Int} (given : integer? name value = .ok (some whole)) : Numeral.Short whole := by
  unfold integer? at given
  split at given
  · cases given
  · split at given
    · rename_i denotes
      cases given
      exact short.toInt denotes
    · cases given
    · cases given

/-- A setting of a document is infinite: the depth limit, or the seed behind a depth limit that can
be read. -/
def Settings.HasInfinite (value : Value) : Prop :=
  (field value.fieldsOrEmpty "maxDepth" "max_depth").IsInfinite ∨
    (∃ maxDepth, integer? "maxDepth" (field value.fieldsOrEmpty "maxDepth" "max_depth") =
      .ok maxDepth) ∧ (field value.fieldsOrEmpty "randomSeed" "random_seed").IsInfinite

theorem Settings.short_field {fields : Fields} (short : (Value.map fields).Short)
    (name otherName : String) : (field fields name otherName).Short := by
  rw [field]
  cases found : fields.get? name with
  | none => exact short.get otherName
  | some value =>
    have given := short.get name
    rwa [Fields.get, found] at given

theorem Settings.ofValue?_eq_fault_iff {value : Value} (short : value.Short) {reason : Fault} :
    ofValue? value = .error (.fault reason) ↔ reason = .infinite ∧ HasInfinite value := by
  have fields := short_field short.fieldsOrEmpty
  unfold ofValue?
  by_cases null : value.isNull
  · obtain rfl := Value.isNull_iff.mp null
    constructor
    · intro failed
      cases failed
    · rintro ⟨-, ⟨negative, infinite⟩ | ⟨-, negative, infinite⟩⟩
      · cases infinite
      · cases infinite
  · rw [if_neg null]
    constructor
    · intro failed
      rcases Effect.bind_eq_error.mp failed with unread | ⟨maxDepth, read, failed⟩
      · obtain ⟨rfl, infinite⟩ := (integer?_eq_fault_iff (fields _ _)).mp unread
        exact ⟨rfl, .inl infinite⟩
      · rcases Effect.bind_eq_error.mp failed with unread | ⟨randomSeed, -, failed⟩
        · obtain ⟨rfl, infinite⟩ := (integer?_eq_fault_iff (fields _ _)).mp unread
          exact ⟨rfl, .inr ⟨⟨maxDepth, read⟩, infinite⟩⟩
        · cases maxDepth with
          | none => cases failed
          | some depth =>
            by_cases small : depth < 1
            · simp only [if_pos small] at failed
              have text := Numeral.text_of_short (short_of_integer? (fields _ _) read)
              have error := Except.error.inj failed
              exact (LoadError.showing_ne_fault (fun _ => rfl) ⟨_, text⟩ error).elim
            · simp only [if_neg small] at failed
              cases failed
    · rintro ⟨rfl, infinite | ⟨⟨maxDepth, read⟩, infinite⟩⟩
      · refine Effect.bind_eq_error.mpr (.inl ?_)
        exact (integer?_eq_fault_iff (fields _ _)).mpr ⟨rfl, infinite⟩
      · refine Effect.bind_eq_error.mpr (.inr ⟨maxDepth, read, Effect.bind_eq_error.mpr (.inl ?_)⟩)
        exact (integer?_eq_fault_iff (fields _ _)).mpr ⟨rfl, infinite⟩

theorem modifierNames?_eq_fault_iff {value : Value} (short : value.Short) {reason : Fault} :
    modifierNames? value = .error (.fault reason) ↔
      reason = .notIterable ∧ value ≠ .null ∧ value.Lacks := by
  unfold modifierNames?
  split
  · simp
  · simp [Value.Lacks, Value.elements]
  · rename_i given _
    have nonnull : value ≠ .null := given
    rw [Effect.bind_eq_error, LoadError.liftM_eq_fault, Value.elements_eq_error_iff]
    constructor
    · rintro (unread | ⟨elements, read, failed⟩)
      · exact ⟨unread.1, nonnull, unread.2⟩
      · rcases Effect.bind_eq_error.mp failed with untexted | ⟨names, -, made⟩
        · obtain ⟨element, member, failed⟩ := Effect.exists_of_mapM_eq_error untexted
          have given := short.elements (LoadError.liftM_eq_ok.mp read)
          obtain ⟨text, shown⟩ := (given element member).text
          rw [LoadError.liftM_eq_fault, shown] at failed
          cases failed
        · cases made
    · rintro ⟨rfl, -, lacks⟩
      exact .inl ⟨rfl, lacks⟩

end TextGrammar
