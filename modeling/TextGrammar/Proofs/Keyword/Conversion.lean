import TextGrammar.Loading
import TextGrammar.Proofs.Traversal

/-!
Documents of keyword rules that cannot be converted. Main statement: if a rule, the modifier names
or the settings of a document cannot be read, loading it fails and leaves every engine as it was;
if the first rule that cannot be read has the shape of no kind, the error names it.
-/

namespace TextGrammar

namespace Keyword

/-- The rule cannot be read: it has the shape of no kind, or what the kind of its shape needs is not
there. -/
def Fails (rule : Value) : Prop :=
  kind? rule = none ∨ ∃ kind reason, kind? rule = some kind ∧ ofKind rule kind = .error reason

/-- The entry cannot be read: its key has no text, or its rule cannot be read. -/
def Unread (entry : Scalar × Value) : Prop :=
  (∃ reason, entry.1.text = .error reason) ∨ Fails entry.2

/-- A part of the document cannot be read. -/
inductive Refused (document : Value) : Prop where
  | noRules (missing : ∀ entries, document.fieldsOrEmpty.get "rules" ≠ .map entries)
  | rule {entries : Fields} {entry : Scalar × Value}
      (given : document.fieldsOrEmpty.get "rules" = .map entries) (member : entry ∈ entries)
      (unread : Unread entry)
  | modifiers {error : LoadError}
      (failed : modifierNames? (document.fieldsOrEmpty.get "modifiers") = .error error)
  | settings {error : LoadError}
      (failed : Settings.ofValue? (document.fieldsOrEmpty.get "settings") = .error error)

/-! ### Rules -/

theorem convert_of_shapeless {rule : Value} (shapeless : kind? rule = none)
    (name : Option String) : convert name rule = .error (.ambiguousShape name) := by
  rw [convert, classify, shapeless]
  rfl

/-- A rule is converted exactly if it can be read. -/
theorem exists_convert_eq_ok_iff {name : Option String} {rule : Value} :
    (∃ config, convert name rule = .ok config) ↔ ¬ Fails rule := by
  cases shape : kind? rule with
  | none =>
    rw [convert_of_shapeless shape]
    refine iff_of_false ?_ fun reads => reads (.inl shape)
    rintro ⟨config, impossible⟩
    cases impossible
  | some kind =>
    rw [convert, classify, shape]
    show (∃ config, (liftM (ofKind rule kind) : Except LoadError RuleConfig) = .ok config) ↔ _
    cases read : ofKind rule kind with
    | ok config =>
      refine iff_of_true ⟨config, rfl⟩ ?_
      rintro (shapeless | ⟨other, reason, same, failed⟩)
      · rw [shape] at shapeless
        cases shapeless
      · rw [shape] at same
        cases same
        rw [read] at failed
        cases failed
    | error reason =>
      refine iff_of_false ?_ fun reads => reads (.inr ⟨kind, reason, shape, read⟩)
      rintro ⟨config, impossible⟩
      cases impossible

/-- The rule of an entry under its name. -/
def convertEntry : Scalar × Value → Except LoadError (String × RuleConfig) :=
  RuleConfig.ofEntry fun name => convert (some name)

theorem convertEntry_of_text {entry : Scalar × Value} {name : String}
    (key : entry.1.text = .ok name) :
    convertEntry entry = do return (name, ← convert (some name) entry.2) := by
  rw [convertEntry, RuleConfig.ofEntry, key]
  rfl

/-- An entry is converted exactly if it can be read. -/
theorem exists_convertEntry_eq_ok_iff {entry : Scalar × Value} :
    (∃ named, convertEntry entry = .ok named) ↔ ¬ Unread entry := by
  cases key : entry.1.text with
  | error reason =>
    refine iff_of_false ?_ fun reads => reads (.inl ⟨reason, key⟩)
    rintro ⟨named, converted⟩
    rw [convertEntry, RuleConfig.ofEntry, key] at converted
    cases converted
  | ok name =>
    have read : Unread entry ↔ Fails entry.2 := by simp [Unread, key]
    have converts : (∃ config, convert (some name) entry.2 = .ok config) ↔ ¬ Fails entry.2 :=
      exists_convert_eq_ok_iff
    rw [read, ← converts, convertEntry_of_text key]
    cases convert (some name) entry.2 <;> simp

theorem exists_convertEntry_eq_error {entry : Scalar × Value} (unread : Unread entry) :
    ∃ error, convertEntry entry = .error error := by
  cases converted : convertEntry entry with
  | error error => exact ⟨error, rfl⟩
  | ok named => exact absurd unread (exists_convertEntry_eq_ok_iff.mp ⟨named, converted⟩)

/-! ### Documents -/

/-- A document with rules is read as these, then its modifier names, then its settings. -/
theorem grammar_of_rules {document : Value} {entries : Fields}
    (given : document.fieldsOrEmpty.get "rules" = .map entries) :
    grammar document = do
      let rules ← entries.mapM convertEntry
      let modifiers ← modifierNames? (document.fieldsOrEmpty.get "modifiers")
      let settings ← Settings.ofValue? (document.fieldsOrEmpty.get "settings")
      return ⟨.ofList rules, modifiers, settings⟩ := by
  rw [grammar, GrammarConfig.ofDocument]
  simp only [given]
  rfl

/-- The configuration of a document has its rules in their converted form. -/
theorem grammar_eq_ok_iff {document : Value} {config : GrammarConfig} :
    grammar document = .ok config ↔ ∃ entries rules,
      document.fieldsOrEmpty.get "rules" = .map entries ∧
      entries.mapM convertEntry = .ok rules ∧
      modifierNames? (document.fieldsOrEmpty.get "modifiers") = .ok config.modifiers ∧
      Settings.ofValue? (document.fieldsOrEmpty.get "settings") = .ok config.settings ∧
      config.rules = .ofList rules := by
  constructor
  · intro converted
    cases given : document.fieldsOrEmpty.get "rules" with
    | scalar | list =>
      rw [grammar, GrammarConfig.ofDocument] at converted
      simp only [given] at converted
      cases converted
    | map entries =>
      rw [grammar_of_rules given] at converted
      obtain ⟨rules, read, converted⟩ := Effect.bind_eq_ok.mp converted
      obtain ⟨names?, modifiers, converted⟩ := Effect.bind_eq_ok.mp converted
      obtain ⟨settings?, settings, converted⟩ := Effect.bind_eq_ok.mp converted
      cases converted
      exact ⟨entries, rules, rfl, read, modifiers, settings, rfl⟩
  · rintro ⟨entries, rules, given, read, modifiers, settings, same⟩
    obtain ⟨table, names?, settings?⟩ := config
    obtain rfl : table = _ := same
    rw [grammar_of_rules given, read, modifiers, settings]
    rfl

/-- A document is converted exactly if all of its parts can be read. -/
theorem exists_grammar_eq_ok_iff {document : Value} :
    (∃ config, grammar document = .ok config) ↔ ¬ Refused document := by
  constructor
  · rintro ⟨config, converted⟩ refused
    obtain ⟨entries, rules, given, read, modifiers, settings, -⟩ :=
      grammar_eq_ok_iff.mp converted
    cases refused with
    | noRules missing => exact missing entries given
    | rule also member unread =>
      rw [given] at also
      cases also
      obtain ⟨error, failed⟩ := exists_convertEntry_eq_error unread
      obtain ⟨first, stopped⟩ := Effect.exists_error_of_mem member failed
      rw [stopped] at read
      cases read
    | modifiers failed =>
      rw [modifiers] at failed
      cases failed
    | settings failed =>
      rw [settings] at failed
      cases failed
  · intro accepted
    obtain ⟨entries, given⟩ := not_forall_not.mp fun missing => accepted (.noRules missing)
    cases read : entries.mapM convertEntry with
    | error error =>
      obtain ⟨entry, member, failed⟩ := Effect.exists_of_mapM_eq_error read
      refine absurd (.rule given member ?_) accepted
      by_contra reads
      obtain ⟨named, converted⟩ := exists_convertEntry_eq_ok_iff.mpr reads
      rw [converted] at failed
      cases failed
    | ok rules =>
      cases modifiers : modifierNames? (document.fieldsOrEmpty.get "modifiers") with
      | error error => exact absurd (.modifiers modifiers) accepted
      | ok names? =>
        cases settings : Settings.ofValue? (document.fieldsOrEmpty.get "settings") with
        | error error => exact absurd (.settings settings) accepted
        | ok settings? =>
          exact ⟨⟨_, names?, settings?⟩, grammar_eq_ok_iff.mpr
            ⟨entries, rules, given, read, modifiers, settings, rfl⟩⟩

/-- The first entry that cannot be read decides on the error, here for want of a shape. -/
theorem grammar_of_shapeless {document : Value} {before after : Fields} {key : Scalar}
    {name : String} {rule : Value}
    (given : document.fieldsOrEmpty.get "rules" = .map (before ++ (key, rule) :: after))
    (read : ∀ entry ∈ before, ¬ Unread entry) (named : key.text = .ok name)
    (shapeless : kind? rule = none) :
    grammar document = .error (.ambiguousShape (some name)) := by
  have failed : convertEntry (key, rule) = .error (.ambiguousShape (some name)) := by
    rw [convertEntry_of_text named, convert_of_shapeless shapeless]
    rfl
  have stopped : (before ++ (key, rule) :: after).mapM convertEntry =
      .error (.ambiguousShape (some name)) :=
    Effect.mapM_of_first
      (fun entry member => exists_convertEntry_eq_ok_iff.mpr (read entry member)) failed
  rw [grammar_of_rules given, stopped]
  rfl

end Keyword

namespace Load

open Keyword

variable {ω : Type}

/-- A document of which a part cannot be read is refused, with an error that does not depend on the
engine, and leaves every engine as it was. If all rules before one of no shape can be read, the
error names that one. A document of which every part can be read is loaded in its converted
form. -/
theorem keywords_converted_first (registry : Registry ω) (document : Value) :
    (Refused document → ∃ error, ∀ (ε : Type) [Performs ε ω] (loading : Loading ε),
      keywords registry document loading = (.error error, loading)) ∧
    (∀ before key name rule after,
      document.fieldsOrEmpty.get "rules" = .map (before ++ (key, rule) :: after) →
      (∀ entry ∈ before, ¬ Unread entry) → key.text = .ok name → kind? rule = none →
      ∀ (ε : Type) [Performs ε ω] (loading : Loading ε),
        keywords registry document loading =
          (.error (.ambiguousShape (some name)), loading)) ∧
    (¬ Refused document → ∃ config, Keyword.grammar document = .ok config ∧
      ∀ (ε : Type) [Performs ε ω] (loading : Loading ε),
        keywords registry document loading = grammar registry config loading) := by
  have refused {error : LoadError} (failed : Keyword.grammar document = .error error)
      (ε : Type) [Performs ε ω] (loading : Loading ε) :
      keywords registry document loading = (.error error, loading) := by
    rw [keywords, Effect.bind_apply, failed]
    rfl
  refine ⟨?_, ?_, ?_⟩
  · intro unread
    cases converted : Keyword.grammar document with
    | error error => exact ⟨error, refused converted⟩
    | ok config => exact absurd unread (exists_grammar_eq_ok_iff.mp ⟨config, converted⟩)
  · intro before key name rule after given read named shapeless
    exact refused (grammar_of_shapeless given read named shapeless)
  · intro accepted
    obtain ⟨config, converted⟩ := exists_grammar_eq_ok_iff.mpr accepted
    refine ⟨config, converted, fun ε _ loading => ?_⟩
    rw [keywords, Effect.bind_apply, converted]
    rfl

/-- A document of keyword rules that begins with a list of heroes and has no modifiers. -/
def heroes (more : Fields) : Value :=
  .map [(.str "settings", .map [(.str "maxDepth", .int 3)]),
    (.str "rules", .map ((.str "hero", .list [.str "Ada"]) :: more))]

/-- The second rule has no shape, and the third one, which would fail otherwise, is not read. -/
theorem heroes_converted_first :
    let shapeless : Scalar × Value := (.number (.int 7), .map [(.str "values", .list [])])
    let unread : Scalar × Value := (.str "place", .map [(.str "sequence", .int 5)])
    let registry : Registry Unit := .empty
    (∃ error, ∀ loading : Loading (Recorder Unit),
      keywords registry (heroes [unread]) loading = (.error error, loading)) ∧
    (∀ loading : Loading (Recorder Unit), keywords registry (heroes [shapeless, unread]) loading =
      (.error (.ambiguousShape (some "7")), loading)) ∧
    ∃ config, Keyword.grammar (heroes []) = .ok config ∧ ∀ loading : Loading (Recorder Unit),
      keywords registry (heroes []) loading = grammar registry config loading := by
  intro shapeless unread registry
  have hero : ¬ Unread (.str "hero", .list [.str "Ada"]) := by
    rintro (⟨reason, failed⟩ | shape | ⟨kind, reason, shape, failed⟩)
    · cases failed
    · cases shape
    · cases shape
      cases failed
  refine ⟨?_, ?_, ?_⟩
  · have fails : Unread unread := .inr (.inr ⟨.sequential, _, rfl, rfl⟩)
    obtain ⟨error, refused⟩ := (keywords_converted_first registry (heroes [unread])).1
      (.rule rfl (List.mem_cons_of_mem _ List.mem_cons_self) fails)
    exact ⟨error, refused _⟩
  · refine (keywords_converted_first registry (heroes [shapeless, unread])).2.1
      [(.str "hero", .list [.str "Ada"])] (.number (.int 7)) "7" _ [unread] rfl ?_ (by cbv) rfl _
    exact List.forall_mem_singleton.mpr hero
  · have accepted : ¬ Refused (heroes []) := by
      rintro (missing | ⟨given, member, fails⟩ | failed | failed)
      · exact missing _ rfl
      · cases given
        cases List.mem_singleton.mp member
        exact hero fails
      · cases failed
      · cases failed
    obtain ⟨config, converted, loaded⟩ :=
      (keywords_converted_first registry (heroes [])).2.2 accepted
    exact ⟨config, converted, loaded _⟩

end Load

end TextGrammar
