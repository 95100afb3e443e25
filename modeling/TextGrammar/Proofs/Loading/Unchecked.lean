import Mathlib
import TextGrammar.Proofs.Config.Unchecked
import TextGrammar.Proofs.Json.Short
import TextGrammar.Proofs.Loading.Exact
import TextGrammar.Proofs.Loading.Related

/-!
Errors that loading is not meant to have. Main statement: loading a JSON text ends with a fault
exactly for an integer of too many digits, an infinite setting, modifiers without elements, or a
rule, behind others that can be loaded, with a value without elements in the place of a list or a
condition whose digits denote no number. Everything else that can be wrong with a text is one of the
errors that documents are checked for.
-/

namespace TextGrammar

/-! ### Branches -/

/-- The entry makes a branch: it has values, and a condition that can be compiled unless they are
the default ones. -/
def ConditionEntry.IsBranch : ConditionEntry → Prop
  | .default _ => True
  | .guarded condition (some _) =>
    condition.truthy ∧ ∃ guard, Predicate.compileValue condition = .ok guard
  | .guarded _ none | .other _ => False

/-- Behind entries that make branches there is a condition whose digits denote no number. -/
inductive HasBadGuard : List ConditionEntry → Prop where
  | here {text : String} {values : List Value} {rest : List ConditionEntry}
      (digits : Condition.HasBadDigits text) :
      HasBadGuard (.guarded (.str text) (some values) :: rest)
  | behind {entry : ConditionEntry} {rest : List ConditionEntry} (first : entry.IsBranch)
      (later : HasBadGuard rest) : HasBadGuard (entry :: rest)

namespace Load

variable {ε ω α β : Type}

/-- A step behind an outcome fails exactly if the outcome is an error or the step itself fails. -/
theorem ofExcept_bind_eq_error_iff {outcome : Except LoadError α} {next : α → Load ε β}
    {loading : Loading ε} {error : LoadError} :
    ((ofExcept outcome >>= next) loading).1 = .error error ↔ outcome = .error error ∨
      ∃ value, outcome = .ok value ∧ (next value loading).1 = .error error := by
  rw [Effect.bind_apply]
  cases outcome with
  | ok value =>
    show (next value loading).1 = _ ↔ _
    simp
  | error other =>
    show (Except.error other : Except LoadError β) = _ ↔ _
    simp

theorem exists_branch {entry : ConditionEntry} (made : entry.IsBranch) (rule : String)
    (index : Nat) : ∃ given, branch rule index entry = .ok given := by
  cases entry with
  | default values => exact ⟨_, rfl⟩
  | other value => cases made
  | guarded condition values =>
    cases values with
    | none => cases made
    | some values =>
      obtain ⟨truthy, guard, compiled⟩ := made
      exact ⟨(⟨some (.condition guard), values, none⟩, guard.notes),
        by simp [branch, truthy, compiled]⟩

theorem isBranch_of_branch {entry : ConditionEntry} {rule : String} {index : Nat}
    {given : Branch × List Note} (made : branch rule index entry = .ok given) : entry.IsBranch := by
  unfold branch at made
  split at made
  · trivial
  · split at made
    · rename_i truthy
      split at made
      · rename_i guard compiled
        exact ⟨truthy, guard, compiled⟩
      · cases made
    · cases made
  · cases made
  · cases made

/-- The condition of the entry, if it has one that is compiled, is a text. -/
def TextGuarded (entry : ConditionEntry) : Prop :=
  ∀ condition values, entry = .guarded condition (some values) → ∃ text, condition = .str text

theorem branch_eq_fault_iff {entry : ConditionEntry} (guarded : TextGuarded entry) (rule : String)
    (index : Nat) {reason : Fault} : branch rule index entry = .error (.fault reason) ↔
      reason = .notNumeral ∧
        ∃ text values,
          entry = .guarded (.str text) (some values) ∧ Condition.HasBadDigits text := by
  constructor
  · intro failed
    unfold branch at failed
    split at failed
    · cases failed
    · rename_i condition values
      split at failed
      · split at failed
        · cases failed
        · rename_i uncompiled
          cases failed
          obtain ⟨text, rfl⟩ := guarded condition values rfl
          obtain ⟨rfl, digits⟩ := Predicate.compile_eq_error_iff.mp uncompiled
          exact ⟨rfl, text, values, rfl, digits⟩
      · cases failed
    · cases failed
    · cases failed
  · rintro ⟨rfl, text, values, rfl, digits⟩
    have truthy := Value.truthy_str.mpr (Condition.hasBadDigits_nonempty digits)
    have uncompiled := Predicate.compile_eq_error_iff.mpr ⟨rfl, digits⟩
    simp [branch, truthy, Predicate.compileValue, uncompiled]

theorem branches_eq_fault_iff {entries : List ConditionEntry}
    (guarded : ∀ entry ∈ entries, TextGuarded entry) (rule : String) (index : Nat)
    (loading : Loading ε) {reason : Fault} :
    ((branches rule index entries : Load ε _) loading).1 = .error (.fault reason) ↔
      reason = .notNumeral ∧ HasBadGuard entries := by
  induction entries generalizing index loading with
  | nil =>
    constructor
    · intro failed
      cases failed
    · rintro ⟨-, bad⟩
      cases bad
  | cons entry rest ih =>
    have first := guarded entry List.mem_cons_self
    have later := ih fun other member => guarded other (List.mem_cons_of_mem entry member)
    have goesOn (given : Branch × List Note) :
        (((do
          let more ← branches rule (index + 1) rest
          return given.1 :: more : Load ε (List Branch))
            { loading with notes := loading.notes ++ given.2 }).1 = .error (.fault reason)) ↔
          reason = .notNumeral ∧ HasBadGuard rest :=
      (Effect.bind_fst_eq_error_iff fun _ _ _ failed => by cases failed).trans
        (later (index + 1) _)
    refine ofExcept_bind_eq_error_iff.trans ?_
    constructor
    · rintro (unmade | ⟨given, made, failed⟩)
      · obtain ⟨rfl, text, values, rfl, digits⟩ := (branch_eq_fault_iff first rule index).mp unmade
        exact ⟨rfl, .here digits⟩
      · obtain ⟨rfl, bad⟩ := (goesOn given).mp failed
        exact ⟨rfl, .behind (isBranch_of_branch made) bad⟩
    · rintro ⟨rfl, bad⟩
      cases bad with
      | here digits =>
        exact .inl ((branch_eq_fault_iff first rule index).mpr ⟨rfl, _, _, rfl, digits⟩)
      | behind compiles bad =>
        obtain ⟨given, made⟩ := exists_branch compiles rule index
        exact .inr ⟨given, made, (goesOn given).mpr ⟨rfl, bad⟩⟩

/-! ### Rules -/

/-- Registering has a fault exactly for a conditional rule whose branches have it. -/
theorem registration_eq_fault_iff (registry : Registry ω) (name : String) (config : RuleConfig)
    (loading : Loading ε) {reason : Fault} :
    ((registration registry name config : Load ε _) loading).1 = .error (.fault reason) ↔
      ∃ entries, config = .conditional entries ∧
        ((branches name 0 entries : Load ε _) loading).1 = .error (.fault reason) := by
  have behind (entries : List ConditionEntry) :
      ((registration registry name (.conditional entries) : Load ε _) loading).1 =
          .error (.fault reason) ↔
        ((branches name 0 entries : Load ε _) loading).1 = .error (.fault reason) :=
    Effect.bind_fst_eq_error_iff fun _ _ _ failed => by cases failed
  constructor
  · intro failed
    cases config with
    | conditional entries => exact ⟨entries, rfl, (behind entries).mp failed⟩
    | static | sequential | range | template => cases failed
    | function function parameters =>
      simp only [registration] at failed
      cases found : registry.get? function with
      | some definition =>
        rw [found] at failed
        cases failed
      | none =>
        rw [found] at failed
        cases failed
    | weighted values weights =>
      simp only [registration] at failed
      by_cases different : values.length ≠ weights.length
      · simp only [if_pos different] at failed
        cases failed
      · simp only [if_neg different] at failed
        cases failed
  · rintro ⟨entries, rfl, failed⟩
    exact (behind entries).mpr failed

variable [Performs ε ω]

theorem rule_eq_error_iff (registry : Registry ω) (name : String) (config : RuleConfig)
    (loading : Loading ε) {error : LoadError} :
    ((rule registry name config : Load ε Unit) loading).1 = .error error ↔
      ((registration registry name config : Load ε _) loading).1 = .error error :=
  Effect.bind_fst_eq_error_iff fun _ _ _ failed => by cases failed

end Load

/-- What is wrong with a rule and is not checked: a value without elements in the place of a list,
or else a condition whose digits denote no number. -/
inductive UncheckedRule (fields : Fields) : RuleKind → Fault → Prop where
  | values {kind : RuleKind} (lacks : LacksValues fields kind) :
      UncheckedRule fields kind .notIterable
  | condition {entries : List Value} {configs : List ConditionEntry}
      (given : fields.get "conditions" = .list entries)
      (read : entries.mapM Tagged.conditionEntry = .ok configs) (bad : HasBadGuard configs) :
      UncheckedRule fields .conditional .notNumeral

/-- The value is a rule with a type, and something about it is not checked. -/
def UncheckedValue (value : Value) (reason : Fault) : Prop :=
  ∃ (fields : Fields) (kind : RuleKind), value = .map fields ∧
    fields.get "type" = .str kind.name ∧ UncheckedRule fields kind reason

namespace Load

variable {ε ω α : Type} [Performs ε ω]

theorem textGuarded_of_read {entries : List Value} {configs : List ConditionEntry}
    (read : entries.mapM Tagged.conditionEntry = .ok configs) :
    ∀ entry ∈ configs, TextGuarded entry := by
  rintro entry member condition values rfl
  obtain ⟨raw, -, converted⟩ := Effect.exists_of_mapM_eq_ok read member
  exact Tagged.exists_text_of_guarded converted

/-- Loading a rule of a kind has a fault exactly if something about it is not checked. -/
theorem rule_of_kind_eq_fault_iff (registry : Registry ω) (name : String) {fields : Fields}
    (short : (Value.map fields).Short) (kind : RuleKind) (loading : Loading ε) (reason : Fault) :
    ((ofExcept (Tagged.ruleOfKind name fields kind) >>= rule registry name : Load ε Unit)
      loading).1 = .error (.fault reason) ↔ UncheckedRule fields kind reason := by
  refine ofExcept_bind_eq_error_iff.trans ?_
  rw [Tagged.ruleOfKind_eq_fault_iff short]
  constructor
  · rintro (⟨rfl, lacks⟩ | ⟨config, read, failed⟩)
    · exact .values lacks
    · rw [rule_eq_error_iff, registration_eq_fault_iff] at failed
      obtain ⟨configs, rfl, failed⟩ := failed
      obtain ⟨rfl, -⟩ := Tagged.madeFrom_ruleOfKind read
      obtain ⟨entries, given, converted⟩ := Tagged.conditional_eq_ok_iff.mp read
      obtain ⟨rfl, bad⟩ :=
        (branches_eq_fault_iff (textGuarded_of_read converted) name 0 loading).mp failed
      exact .condition given converted bad
  · intro unchecked
    cases unchecked with
    | values lacks => exact .inl ⟨rfl, lacks⟩
    | condition given converted bad =>
      have failed :=
        (branches_eq_fault_iff (textGuarded_of_read converted) name 0 loading).mpr ⟨rfl, bad⟩
      refine .inr ⟨_, Tagged.conditional_eq_ok_iff.mpr ⟨_, given, converted⟩, ?_⟩
      rw [rule_eq_error_iff, registration_eq_fault_iff]
      exact ⟨_, rfl, failed⟩

theorem taggedRule_eq_fault_iff (registry : Registry ω) (name : String) {value : Value}
    (short : value.Short) (loading : Loading ε) {reason : Fault} :
    ((taggedRule registry name value : Load ε Unit) loading).1 = .error (.fault reason) ↔
      UncheckedValue value reason := by
  cases value with
  | scalar | list =>
    constructor
    · intro failed
      cases failed
    · rintro ⟨fields, kind, same, -⟩
      cases same
  | map fields =>
    by_cases named : ∃ kind : RuleKind, Fields.get fields "type" = .str kind.name
    · obtain ⟨kind, type⟩ := named
      have whole := rule_of_kind_eq_fault_iff registry name short kind loading reason
      rw [← rule_of_type type] at whole
      refine whole.trans ⟨fun unchecked => ⟨fields, kind, rfl, type, unchecked⟩, ?_⟩
      rintro ⟨others, other, same, typed, unchecked⟩
      cases same
      have kinds : kind.name = other.name := by simpa [type] using typed
      rw [RuleKind.name_injective kinds]
      exact unchecked
    · rw [taggedRule, rule_of_no_type (not_exists.mp named)]
      constructor
      · intro failed
        have error := Except.error.inj failed
        exact (LoadError.showing_ne_fault (fun _ => rfl) (short.get "type").text error).elim
      · rintro ⟨others, kind, same, type, -⟩
        cases same
        exact (named ⟨kind, type⟩).elim

theorem taggedEntry_eq_fault_iff (registry : Registry ω) {entry : Scalar × Value}
    (short : entry.1.Short ∧ entry.2.Short) (loading : Loading ε) {reason : Fault} :
    ((taggedEntry registry entry : Load ε Unit) loading).1 = .error (.fault reason) ↔
      UncheckedValue entry.2 reason := by
  obtain ⟨name, key⟩ := short.1.text
  rw [taggedEntry, key]
  exact taggedRule_eq_fault_iff registry name short.2 loading

/-! ### Documents -/

/-- The rule can be loaded by itself. -/
def Loads (registry : Registry ω) (rule : Scalar × Value) : Prop :=
  (trace (fun _ => false) (taggedEntry registry rule)).1 = .ok ()

omit [Performs ε ω] in
/-- Loading stops with the error of the first rule that cannot be loaded. -/
theorem LoadsUpTo.eq_error_iff {knows : String → Bool} {named : α → Except Fault String}
    {load : α → Load (Recorder ω) Unit} {rules : List α} {outcome : Except LoadError Unit}
    {requests : List (Request ω)} (upTo : LoadsUpTo knows named load rules outcome requests)
    {error : LoadError} :
    outcome = .error error ↔ ∃ before rule behind, rules = before ++ rule :: behind ∧
      (∀ other ∈ before, (trace knows (load other)).1 = .ok ()) ∧
      (trace knows (load rule)).1 = .error error := by
  induction upTo with
  | done =>
    constructor
    · intro failed
      cases failed
    · rintro ⟨before, rule, behind, split, -⟩
      simp at split
  | @fails entry rest reason alone =>
    constructor
    · intro same
      cases same
      exact ⟨[], entry, rest, rfl, List.forall_mem_nil _, by rw [alone]⟩
    · rintro ⟨before, rule, behind, split, loaded, failed⟩
      cases before with
      | nil =>
        cases split
        rw [alone] at failed
        exact failed
      | cons first before =>
        cases split
        have first := loaded _ List.mem_cons_self
        rw [alone] at first
        cases first
  | @loads entry rest name registration outcome requests called alone behind ih =>
    rw [ih]
    constructor
    · rintro ⟨before, rule, later, rfl, loaded, failed⟩
      refine ⟨entry :: before, rule, later, rfl, ?_, failed⟩
      exact List.forall_mem_cons.mpr ⟨by rw [alone], loaded⟩
    · rintro ⟨before, rule, later, split, loaded, failed⟩
      cases before with
      | nil =>
        cases split
        rw [alone] at failed
        cases failed
      | cons first before =>
        cases split
        exact ⟨before, rule, later, rfl, (List.forall_mem_cons.mp loaded).2, failed⟩

end Load

/-- What is wrong with a document and is not checked: an infinite setting, or else modifiers without
elements, or else something about a rule behind others that can be loaded. -/
inductive UncheckedDocument {ω : Type} (registry : Registry ω) (fields : Fields) :
    Fault → Prop where
  | settings (infinite : Settings.HasInfinite (fields.get "settings")) :
      UncheckedDocument registry fields .infinite
  | modifiers {settings? : Option Settings}
      (settings : Settings.ofValue? (fields.get "settings") = .ok settings?)
      (given : fields.get "modifiers" ≠ .null) (lacks : (fields.get "modifiers").Lacks) :
      UncheckedDocument registry fields .notIterable
  | rule {settings? : Option Settings} {names? : Option (List String)} {entries : Fields}
      {before behind : Fields} {rule : Scalar × Value} {reason : Fault}
      (reads : Load.Reads (.map fields) settings? names? entries)
      (split : entries = before ++ rule :: behind)
      (loaded : ∀ other ∈ before, Load.Loads registry other)
      (unchecked : UncheckedValue rule.2 reason) : UncheckedDocument registry fields reason

/-- What is wrong with a JSON text and is not checked: an integer with too many digits, or something
about the document. -/
inductive UncheckedText {ω : Type} (registry : Registry ω) (text : String) : Fault → Prop where
  | digits (read : Json.read text = .error .tooManyDigits) :
      UncheckedText registry text .notNumeral
  | document {fields : Fields} {reason : Fault} (read : Json.read text = .ok (.map fields))
      (unchecked : UncheckedDocument registry fields reason) : UncheckedText registry text reason

namespace Load

variable {ε ω : Type}

/-- A document that is read has a fault exactly if one of its rules has it. -/
theorem readable_eq_fault_iff (registry : Registry ω) {value : Value} (short : value.Short)
    {settings? : Option Settings} {names? : Option (List String)} {entries : Fields}
    (reads : Reads value settings? names? entries) (reason : Fault) :
    (trace (fun _ => false) (document registry value)).1 = .error (.fault reason) ↔
      ∃ before rule behind, entries = before ++ rule :: behind ∧
        (∀ other ∈ before, Loads registry other) ∧ UncheckedValue rule.2 reason := by
  obtain ⟨outcome, requests, makes, registrations, upTo, -⟩ :=
    @makes_document ω (fun _ => false) registry _ _ _ _ reads
  have rules : ∀ rule ∈ entries, rule.1.Short ∧ rule.2.Short := by
    cases reads with
    | parts _ _ given =>
      have mapped := short.get "rules"
      rw [given] at mapped
      exact mapped.entries
  have fault {before behind : Fields} {rule : Scalar × Value}
      (split : entries = before ++ rule :: behind) :
      (trace (fun _ => false) (taggedEntry registry rule)).1 = .error (.fault reason) ↔
        UncheckedValue rule.2 reason :=
    taggedEntry_eq_fault_iff registry (rules rule (by simp [split])) _
  rw [makes.trace_eq]
  refine upTo.eq_error_iff.trans ?_
  constructor
  · rintro ⟨before, rule, behind, split, loaded, failed⟩
    exact ⟨before, rule, behind, split, loaded, (fault split).mp failed⟩
  · rintro ⟨before, rule, behind, split, loaded, unchecked⟩
    exact ⟨before, rule, behind, split, loaded, (fault split).mpr unchecked⟩

/-- A document that cannot be read has a fault exactly if its settings or its modifiers have it. -/
theorem unreadable_eq_fault_iff (registry : Registry ω) {fields : Fields}
    (unreadable : ∀ settings? names? entries, ¬ Reads (.map fields) settings? names? entries)
    (reason : Fault) :
    (trace (fun _ => false) (document registry (.map fields))).1 = .error (.fault reason) ↔
      Settings.ofValue? (fields.get "settings") = .error (.fault reason) ∨
        (∃ settings?, Settings.ofValue? (fields.get "settings") = .ok settings?) ∧
          modifierNames? (fields.get "modifiers") = .error (.fault reason) := by
  refine ofExcept_bind_eq_error_iff.trans (or_congr_right ?_)
  constructor
  · rintro ⟨settings?, settings, failed⟩
    refine ⟨⟨settings?, settings⟩, ?_⟩
    rcases ofExcept_bind_eq_error_iff.mp failed with unread | ⟨names?, names, failed⟩
    · exact unread
    · cases rules : Fields.get fields "rules" with
      | map entries => exact (unreadable _ _ _ (.parts settings names rules)).elim
      | scalar | list =>
        rw [rules] at failed
        cases failed
  · rintro ⟨⟨settings?, settings⟩, unread⟩
    exact ⟨settings?, settings, ofExcept_bind_eq_error_iff.mpr (.inl unread)⟩

theorem document_eq_fault_iff (registry : Registry ω) {fields : Fields}
    (short : (Value.map fields).Short) (reason : Fault) :
    (trace (fun _ => false) (document registry (.map fields))).1 = .error (.fault reason) ↔
      UncheckedDocument registry fields reason := by
  by_cases readable : ∃ settings? names? entries, Reads (.map fields) settings? names? entries
  · obtain ⟨settings?, names?, entries, reads⟩ := readable
    rw [readable_eq_fault_iff registry short reads]
    constructor
    · rintro ⟨before, rule, behind, split, loaded, unchecked⟩
      exact .rule reads split loaded unchecked
    · intro unchecked
      cases reads with
      | parts settings names rules =>
        cases unchecked with
        | settings infinite =>
          rw [(Settings.ofValue?_eq_fault_iff (short.get _)).mpr ⟨rfl, infinite⟩] at settings
          cases settings
        | modifiers _ given lacks =>
          rw [(modifierNames?_eq_fault_iff (short.get _)).mpr ⟨rfl, given, lacks⟩] at names
          cases names
        | rule others split loaded unchecked =>
          cases others with
          | parts _ _ same =>
            rw [rules] at same
            cases same
            exact ⟨_, _, _, split, loaded, unchecked⟩
  · have unreadable : ∀ settings? names? entries, ¬ Reads (.map fields) settings? names? entries :=
      fun settings? names? entries reads => readable ⟨settings?, names?, entries, reads⟩
    rw [unreadable_eq_fault_iff registry unreadable, Settings.ofValue?_eq_fault_iff (short.get _),
      modifierNames?_eq_fault_iff (short.get _)]
    constructor
    · rintro (⟨rfl, infinite⟩ | ⟨⟨settings?, settings⟩, rfl, given, lacks⟩)
      · exact .settings infinite
      · exact .modifiers settings given lacks
    · intro unchecked
      cases unchecked with
      | settings infinite => exact .inl ⟨rfl, infinite⟩
      | modifiers settings given lacks => exact .inr ⟨⟨_, settings⟩, rfl, given, lacks⟩
      | rule reads => exact (unreadable _ _ _ reads).elim

/-- Only maps are documents that anything can be wrong with. -/
theorem value_eq_fault_iff (registry : Registry ω) {value : Value} (short : value.Short)
    (reason : Fault) :
    (trace (fun _ => false) (document registry value)).1 = .error (.fault reason) ↔
      ∃ fields, value = .map fields ∧ UncheckedDocument registry fields reason := by
  cases value with
  | map fields => simpa using document_eq_fault_iff registry short reason
  | scalar | list =>
    constructor
    · intro failed
      cases failed
    · rintro ⟨fields, same, -⟩
      cases same

theorem ofJson_eq_ok_iff {text : String} {value : Value} :
    Document.ofJson (.str text) = .ok value ↔ Json.read text = .ok value := by
  simp only [Document.ofJson]
  split
  · rename_i given read
    rw [read]
    simp
  · rename_i problem place read
    simp [read]
  · rename_i read
    simp [read]

theorem ofJson_eq_fault_iff {text : String} {reason : Fault} :
    Document.ofJson (.str text) = .error (.fault reason) ↔
      reason = .notNumeral ∧ Json.read text = .error .tooManyDigits := by
  simp only [Document.ofJson]
  split
  · rename_i given read
    simp [read]
  · rename_i problem place read
    simp [read]
  · rename_i read
    simp [read, eq_comm]

/-- Loading a JSON text ends with a fault exactly if something about it is not checked, whatever the
engine answers. -/
theorem json_eq_fault_iff [Performs ε ω] (registry : Registry ω) (text : String)
    (loading : Loading ε) (reason : Fault) :
    ((json registry (.str text) : Load ε Unit) loading).1 = .error (.fault reason) ↔
      UncheckedText registry text reason := by
  have same := outcome_eq registry (.json (.str text)) loading
    (⟨⟨fun _ => false, []⟩, []⟩ : Loading (Recorder ω))
  show (run registry (.json (.str text)) loading).1 = _ ↔ _
  rw [same]
  refine ofExcept_bind_eq_error_iff.trans ?_
  constructor
  · rintro (unread | ⟨value, read, failed⟩)
    · obtain ⟨rfl, digits⟩ := ofJson_eq_fault_iff.mp unread
      exact .digits digits
    · have denotes := ofJson_eq_ok_iff.mp read
      obtain ⟨fields, rfl, unchecked⟩ :=
        (value_eq_fault_iff registry (Json.short_of_read denotes) reason).mp failed
      exact .document denotes unchecked
  · intro unchecked
    cases unchecked with
    | digits read => exact .inl (ofJson_eq_fault_iff.mpr ⟨rfl, read⟩)
    | document read unchecked =>
      have failed :=
        (value_eq_fault_iff registry (Json.short_of_read read) reason).mpr ⟨_, rfl, unchecked⟩
      exact .inr ⟨_, ofJson_eq_ok_iff.mpr read, failed⟩

/-- A document with an infinite depth limit. -/
def endless : String :=
  "\x7b\"settings\": \x7b\"maxDepth\": Infinity\x7d, \"rules\": \x7b\x7d\x7d"

/-- An infinite depth limit is refused with an error that is none of the checked ones. -/
theorem endless_is_not_checked :
    ∃ error, (trace (fun _ => false) (json (.empty : Registry Unit) (.str endless))).1 =
      .error error ∧ error.isChecked = false := by
  have failed : (trace (fun _ => false) (json (.empty : Registry Unit) (.str endless))).1 =
      .error (.fault .infinite) := by cbv
  exact ⟨_, failed, rfl⟩

end Load

end TextGrammar
