import TextGrammar.Proofs.Loading.Makes

/-!
The effect of loading: settings, modifiers, then the rules up to the first one that fails. A rule
that is loaded makes the one request that it makes by itself; the one that fails makes none.
-/

namespace TextGrammar.Load

variable {ω α : Type} {knows : String → Bool}

/-! ### Single rules -/

/-- The step registers something under the name, if there is one, or it fails and asks for
nothing. -/
def LoadsOne (knows : String → Bool) (name? : Except Fault String)
    (step : Load (Recorder ω) Unit) : Prop :=
  (∃ name registration, name? = .ok name ∧
      Makes knows step (.ok ()) [.register name registration]) ∨
    ∃ error, Makes knows step (.error error) []

theorem loadsOne_rule (registry : Registry ω) (name : String) (config : RuleConfig) :
    LoadsOne knows (.ok name) (rule registry name config) := by
  have quiet : Quiet knows (registration registry name config) :=
    quiet_registration registry name config
  obtain ⟨outcome, found⟩ := quiet
  cases outcome with
  | error error => exact .inr ⟨error, makes_bind_error found⟩
  | ok registration =>
    obtain ⟨accepted, asked⟩ := makes_request knows (.register name registration)
    exact .inl ⟨name, registration, rfl, makes_bind found (makes_bind asked (makes_report _))⟩

theorem loadsOne_taggedRule (registry : Registry ω) (name : String) (value : Value) :
    LoadsOne knows (.ok name) (taggedRule registry name value) := by
  cases value with
  | scalar | list => exact .inr ⟨_, makes_throw _⟩
  | map fields =>
    have read : Makes knows (ofExcept (Tagged.rule name (.map fields)) : Load (Recorder ω) _) _ _ :=
      makes_ofExcept _
    cases outcome : Tagged.rule name (.map fields) with
    | error error =>
      rw [outcome] at read
      refine .inr ⟨error, ?_⟩
      rw [taggedRule, outcome]
      exact makes_bind_error read
    | ok config =>
      rw [outcome] at read
      rw [taggedRule, outcome]
      exact (loadsOne_rule registry name config).imp
        (fun ⟨other, registration, same, makes⟩ =>
          ⟨other, registration, same, makes_bind read makes⟩)
        fun ⟨error, makes⟩ => ⟨error, makes_bind read makes⟩

theorem loadsOne_taggedEntry (registry : Registry ω) (entry : Scalar × Value) :
    LoadsOne knows entry.1.text (taggedEntry registry entry) := by
  have key : Makes knows (ofFault entry.1.text : Load (Recorder ω) _) _ _ := makes_ofExcept _
  cases text : entry.1.text with
  | error reason =>
    rw [text] at key
    refine .inr ⟨.fault reason, ?_⟩
    rw [taggedEntry, text]
    exact makes_bind_error key
  | ok name =>
    rw [text] at key
    rw [taggedEntry, text]
    exact (loadsOne_taggedRule registry name entry.2).imp
      (fun ⟨other, registration, same, makes⟩ =>
        ⟨other, registration, same, makes_bind key makes⟩)
      fun ⟨error, makes⟩ => ⟨error, makes_bind key makes⟩

/-! ### Rules in their order -/

variable {named : α → Except Fault String} {load : α → Load (Recorder ω) Unit} {rules : List α}

/-- The effect of loading entries in their order: each one that can be loaded makes the request that
it makes by itself, under its name, up to the first that cannot, whose error is the outcome. -/
inductive LoadsUpTo (knows : String → Bool) (named : α → Except Fault String)
    (load : α → Load (Recorder ω) Unit) :
    List α → Except LoadError Unit → List (Request ω) → Prop where
  | done : LoadsUpTo knows named load [] (.ok ()) []
  | fails {entry : α} {rest : List α} {error : LoadError}
      (alone : trace knows (load entry) = (.error error, [])) :
      LoadsUpTo knows named load (entry :: rest) (.error error) []
  | loads {entry : α} {rest : List α} {name : String} {registration : Registration ω}
      {outcome : Except LoadError Unit} {requests : List (Request ω)}
      (called : named entry = .ok name)
      (alone : trace knows (load entry) = (.ok (), [.register name registration]))
      (behind : LoadsUpTo knows named load rest outcome requests) :
      LoadsUpTo knows named load (entry :: rest) outcome
        (.register name registration :: requests)

theorem makes_each (one : ∀ entry, LoadsOne knows (named entry) (load entry)) (entries : List α) :
    ∃ outcome requests, Makes knows (each load entries) outcome requests ∧
      LoadsUpTo knows named load entries outcome requests := by
  induction entries with
  | nil => exact ⟨_, _, makes_pure (), .done⟩
  | cons entry rest ih =>
    rcases one entry with ⟨name, registration, called, makes⟩ | ⟨error, makes⟩
    · obtain ⟨outcome, requests, goesOn, upTo⟩ := ih
      exact ⟨outcome, _, makes_bind makes goesOn, .loads called makes.trace_eq upTo⟩
    · exact ⟨_, _, makes_bind_error makes, .fails makes.trace_eq⟩

/-! ### Settings and modifiers -/

/-- The requests of settings: the depth limit if it is given, then the seed if it is given. -/
def settingRequests (settings : Settings) : List (Request ω) :=
  (settings.maxDepth.map Request.setMaxDepth).toList ++
    (settings.randomSeed.map Request.setSeed).toList

/-- The depth limit that is given, if one is, is positive. -/
def Positive (settings : Settings) : Prop := ∀ depth, settings.maxDepth = some depth → 1 ≤ depth

theorem makes_seed (randomSeed : Option Int) :
    Makes knows (settings ⟨none, randomSeed⟩ : Load (Recorder ω) Unit) (.ok ())
      (randomSeed.map Request.setSeed).toList := by
  cases randomSeed with
  | none => exact makes_pure ()
  | some seed =>
    obtain ⟨accepted, asked⟩ := makes_request (ω := ω) knows (.setSeed seed)
    exact makes_bind asked (makes_pure ())

theorem makes_settings {given : Settings} (positive : Positive given) :
    Makes knows (settings given : Load (Recorder ω) Unit) (.ok ()) (settingRequests given) := by
  obtain ⟨maxDepth, randomSeed⟩ := given
  cases maxDepth with
  | none => exact makes_seed randomSeed
  | some depth =>
    have large : ¬ depth < 1 := by
      have least := positive depth rfl
      omega
    obtain ⟨accepted, asked⟩ := makes_request (ω := ω) knows (.setMaxDepth depth)
    simp only [settings, if_neg large]
    exact makes_bind asked (makes_seed randomSeed)

theorem makes_settings_error {given : Settings} {depth : Int} (is : given.maxDepth = some depth)
    (small : depth < 1) :
    Makes knows (settings given : Load (Recorder ω) Unit)
      (.error (.depthNotPositive depth)) [] := by
  obtain ⟨maxDepth, randomSeed⟩ := given
  cases is
  simp only [settings, if_pos small]
  exact makes_bind_error (makes_throw _)

theorem makes_modifiers (names : List String) :
    Makes knows (modifiers names : Load (Recorder ω) Unit) (.ok ())
      (names.map Request.loadModifier) := by
  induction names with
  | nil => exact makes_pure ()
  | cons name rest ih =>
    obtain ⟨accepted, asked⟩ := makes_request (ω := ω) knows (.loadModifier name)
    rw [modifiers]
    refine makes_bind asked ?_
    cases accepted with
    | true => exact ih
    | false => exact makes_bind (makes_report _) ih

/-! ### Whole configurations -/

/-- The requests of settings that may be absent. -/
def givenRequests (settings? : Option Settings) : List (Request ω) :=
  (settings?.map settingRequests).getD []

/-- The effect of loading settings, modifiers and rules: the requests of the settings, one for each
modifier, and those of the rules up to the first that fails. -/
def LoadsParts (knows : String → Bool) (settings? : Option Settings)
    (names? : Option (List String)) (named : α → Except Fault String)
    (load : α → Load (Recorder ω) Unit) (rules : List α)
    (effect : Except LoadError Unit × List (Request ω)) : Prop :=
  ∃ registrations, LoadsUpTo knows named load rules effect.1 registrations ∧
    effect.2 = givenRequests settings? ++ (names?.getD []).map Request.loadModifier ++ registrations

/-- Settings that are in order, modifiers and rules are asked for one behind the other. -/
theorem makes_parts {settings? : Option Settings} (names? : Option (List String))
    {outcome : Except LoadError Unit} {registrations : List (Request ω)}
    (positive : ∀ given, settings? = some given → Positive given)
    (loads : Makes knows (each load rules) outcome registrations) :
    Makes knows (parts settings? names? load rules) outcome
      (givenRequests settings? ++ (names?.getD []).map Request.loadModifier ++ registrations) := by
  let total : List Note := [⟨.info, .loading, s!"Loaded {rules.length} rule(s)"⟩]
  have counted : Makes knows (do each load rules; report total) outcome registrations := by
    cases outcome with
    | error error => exact makes_bind_error loads
    | ok _ =>
      rw [← List.append_nil registrations]
      exact makes_bind loads (makes_report total)
  have applied : Makes knows
      (do modifiers (names?.getD []); each load rules; report total) outcome
      ((names?.getD []).map Request.loadModifier ++ registrations) :=
    makes_bind (makes_modifiers _) counted
  rw [List.append_assoc]
  cases settings? with
  | none => exact applied
  | some given => exact makes_bind (makes_settings (positive given rfl)) applied

theorem loadsParts_parts {settings? : Option Settings} (names? : Option (List String))
    (rules : List α) (positive : ∀ given, settings? = some given → Positive given)
    (one : ∀ entry, LoadsOne knows (named entry) (load entry)) :
    ∃ outcome requests, Makes knows (parts settings? names? load rules) outcome requests ∧
      LoadsParts knows settings? names? named load rules (outcome, requests) := by
  obtain ⟨outcome, registrations, makes, upTo⟩ := makes_each one rules
  exact ⟨outcome, _, makes_parts names? positive makes, registrations, upTo, rfl⟩

/-- Settings with a depth limit that is not positive are refused before anything is asked for. -/
theorem parts_refused {given : Settings} {names? : Option (List String)} {depth : Int}
    (is : given.maxDepth = some depth) (small : depth < 1) :
    Makes knows (parts (some given) names? load rules) (.error (.depthNotPositive depth)) [] :=
  makes_bind_error (makes_settings_error is small)

/-! ### Documents -/

/-- The parts of a document that can be read: settings, modifier names and rules. -/
inductive Reads : Value → Option Settings → Option (List String) → Fields → Prop where
  | parts {fields entries : Fields} {settings? : Option Settings} {names? : Option (List String)}
      (settings : Settings.ofValue? (Fields.get fields "settings") = .ok settings?)
      (names : modifierNames? (Fields.get fields "modifiers") = .ok names?)
      (rules : Fields.get fields "rules" = .map entries) :
      Reads (.map fields) settings? names? entries

/-- Settings that have been read are in order. -/
theorem positive_of_ofValue? {value : Value} {given : Settings}
    (read : Settings.ofValue? value = .ok (some given)) : Positive given := by
  unfold Settings.ofValue? at read
  split at read
  · cases read
  · obtain ⟨maxDepth, -, read⟩ := Effect.bind_eq_ok.mp read
    obtain ⟨randomSeed, -, read⟩ := Effect.bind_eq_ok.mp read
    cases maxDepth with
    | none =>
      cases read
      intro depth is
      cases is
    | some limit =>
      by_cases small : limit < 1
      · simp only [if_pos small] at read
        cases read
      · simp only [if_neg small] at read
        cases read
        intro depth is
        cases is
        omega

theorem makes_document (registry : Registry ω) {value : Value} {settings? : Option Settings}
    {names? : Option (List String)} {entries : Fields}
    (reads : Reads value settings? names? entries) :
    ∃ outcome requests, Makes knows (document registry value) outcome requests ∧
      LoadsParts knows settings? names? (fun entry => entry.1.text) (taggedEntry registry) entries
        (outcome, requests) := by
  cases reads with
  | parts settings names rules =>
    have positive : ∀ given, settings? = some given → Positive given := by
      rintro given rfl
      exact positive_of_ofValue? settings
    obtain ⟨outcome, requests, makes, effect⟩ :=
      loadsParts_parts names? entries positive (loadsOne_taggedEntry registry)
    refine ⟨outcome, requests, ?_, effect⟩
    rw [document, settings, names, rules]
    exact makes_bind (makes_ofExcept _) (makes_bind (makes_ofExcept _) makes)

/-- A document that cannot be read asks for nothing. -/
theorem document_refused (registry : Registry ω) {value : Value}
    (unreadable : ∀ settings? names? entries, ¬ Reads value settings? names? entries) :
    ∃ error, Makes knows (document registry value) (.error error) [] := by
  cases value with
  | scalar | list => exact ⟨_, makes_throw _⟩
  | map fields =>
    rw [document]
    cases settings : Settings.ofValue? (Fields.get fields "settings") with
    | error error => exact ⟨error, makes_bind_error (makes_ofExcept _)⟩
    | ok settings? =>
      cases names : modifierNames? (Fields.get fields "modifiers") with
      | error error =>
        exact ⟨error, makes_bind (makes_ofExcept _) (makes_bind_error (makes_ofExcept _))⟩
      | ok names? =>
        have noRules (entries : Fields) : Fields.get fields "rules" ≠ .map entries :=
          fun rules => unreadable settings? names? entries (.parts settings names rules)
        refine ⟨.misfit (.noRules .grammar),
          makes_bind (makes_ofExcept _) (makes_bind (makes_ofExcept _) ?_)⟩
        cases found : Fields.get fields "rules" with
        | map entries => exact absurd found (noRules entries)
        | scalar | list => exact makes_throw _

/-! ### The effect of loading -/

/-- Loading has exactly its partial effect. A document that can be read and a configuration whose
depth limit is positive ask for their settings, their modifiers and their rules up to the first one
that fails; any other document or configuration fails and asks for nothing. -/
theorem loading_exact (knows : String → Bool) (registry : Registry ω) :
    (∀ value settings? names? entries, Reads value settings? names? entries →
      LoadsParts knows settings? names? (fun entry => entry.1.text) (taggedEntry registry) entries
        (trace knows (document registry value))) ∧
    (∀ value, (∀ settings? names? entries, ¬ Reads value settings? names? entries) →
      ∃ error, trace knows (document registry value) = (.error error, [])) ∧
    (∀ config : GrammarConfig, (∀ given, config.settings = some given → Positive given) →
      LoadsParts knows config.settings config.modifiers (fun entry => .ok entry.1)
        (fun entry => rule registry entry.1 entry.2) config.rules.entries
        (trace knows (grammar registry config))) ∧
    (∀ config : GrammarConfig, (∃ given, config.settings = some given ∧ ¬ Positive given) →
      ∃ error, trace knows (grammar registry config) = (.error error, [])) := by
  refine ⟨?_, ?_, ?_, ?_⟩
  · intro value settings? names? entries reads
    obtain ⟨outcome, requests, makes, effect⟩ := makes_document registry reads
    rw [makes.trace_eq]
    exact effect
  · intro value unreadable
    obtain ⟨error, makes⟩ := document_refused registry unreadable
    exact ⟨error, makes.trace_eq⟩
  · intro config positive
    obtain ⟨outcome, requests, makes, effect⟩ :=
      loadsParts_parts config.modifiers config.rules.entries positive fun entry =>
        loadsOne_rule registry entry.1 entry.2
    rw [grammar, makes.trace_eq]
    exact effect
  · rintro config ⟨given, is, negative⟩
    obtain ⟨depth, unmet⟩ := Classical.not_forall.mp negative
    obtain ⟨limit, small⟩ := Classical.not_imp.mp unmet
    rw [grammar, is]
    exact ⟨_, (parts_refused limit (by omega)).trace_eq⟩

/-- A document with settings, a modifier, a rule that can be loaded and one that cannot. -/
def halfway : Value :=
  .map [(.str "settings", .map [(.str "maxDepth", .int 3)]), (.str "modifiers", .str "tidy"),
    (.str "rules", .map [
      (.str "a", .map [(.str "type", .str "static"), (.str "values", .list [.str "x"])]),
      (.str "b", .map [(.str "type", .str "nothing")])])]

theorem halfway_loads :
    LoadsParts (fun _ => false) (some ⟨some 3, none⟩) (some ["tidy"])
      (fun entry => entry.1.text) (taggedEntry (Table.empty : Registry Unit))
      [(.str "a", .map [(.str "type", .str "static"), (.str "values", .list [.str "x"])]),
        (.str "b", .map [(.str "type", .str "nothing")])]
      (trace (fun _ => false) (document (Table.empty : Registry Unit) halfway)) := by
  obtain ⟨readable, -, -, -⟩ := loading_exact (fun _ => false) (Table.empty : Registry Unit)
  exact readable halfway _ _ _ (.parts rfl rfl rfl)

example : (trace (fun _ => false) (document (Table.empty : Registry Unit) halfway)).2 =
    [.setMaxDepth 3, .loadModifier "tidy", .register "a" (.static [.str "x"])] := by
  rfl

end TextGrammar.Load
