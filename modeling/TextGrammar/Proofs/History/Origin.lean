import TextGrammar.Proofs.History.Session

/-!
Where the rules of an engine come from. Main statement: a rule that stands in an engine behind a run
stood there at the beginning or was registered in the run, and since then nothing has been
registered under its name.
-/

namespace TextGrammar

variable {ρ ω : Type}

theorem Rule.reset_reset (rule : Rule ω) : rule.reset.reset = rule.reset := by
  cases rule <;> rfl

/-- Nothing is registered under the name. -/
def Event.Spares (name : String) (event : Event ω) : Prop :=
  ∀ registration, event ≠ .registered name registration

section

variable [Draws ρ] {rules later : Table (Rule ω)} {name : String} {rule : Rule ω}

/-- An event that registers nothing under a name puts no rule there. -/
theorem Event.Changes.hasRule {event : Event ω} (change : event.Changes ρ rules later)
    (spares : event.Spares name) (has : later.HasRule name rule) : rules.HasRule name rule := by
  cases change with
  | registered other registration =>
    have different : name ≠ other := by
      rintro rfl
      exact spares registration rfl
    rwa [Table.HasRule, Table.get?_put_of_ne _ _ different] at has
  | removed other =>
    by_cases same : name = other
    · subst same
      rw [Table.HasRule, Table.get?_erase_self] at has
      cases has
    · rwa [Table.HasRule, Table.get?_erase_of_ne _ same] at has
  | cleared => cases has
  | restarted =>
    simp only [Table.HasRule, Table.get?_mapValues, Option.map_map] at has
    simpa [Table.HasRule, Function.comp_def, Rule.reset_reset] using has
  | @resolved _ other text kept found =>
    by_cases same : name = other
    · subst same
      rw [Table.HasRule, Table.get?_put_self] at has
      rw [Table.HasRule, found, ← has, Option.map_some, Option.map_some,
        Expansion.reset_advance]
    · rwa [Table.HasRule, Table.get?_put_of_ne _ _ same] at has

/-- The last registration under a name, among events. -/
def LastRegistered (name : String) (registration : Registration ω) (events : List (Event ω)) :
    Prop :=
  ∃ before after, events = before ++ .registered name registration :: after ∧
    ∀ event ∈ after, event.Spares name

/-- A rule behind events was there before and they spare its name, or it is the one that they
registered last. -/
theorem History.origin {events : List (Event ω)} (history : History ρ events rules later)
    (has : later.HasRule name rule) :
    (rules.HasRule name rule ∧ ∀ event ∈ events, event.Spares name) ∨
      ∃ registration, LastRegistered name registration events ∧
        registration.rule.reset = rule.reset := by
  induction history with
  | done => exact .inl ⟨has, fun _ member => absurd member List.not_mem_nil⟩
  | @next event rest rules between later first behind ih =>
    rcases ih has with ⟨had, spared⟩ | ⟨registration, ⟨before, after, rfl, last⟩, same⟩
    · by_cases registers : ∃ registration, event = .registered name registration
      · obtain ⟨registration, rfl⟩ := registers
        cases first
        rw [Table.HasRule, Table.get?_put_self] at had
        exact .inr ⟨registration, ⟨[], rest, rfl, spared⟩, Option.some.inj had⟩
      · have spares : event.Spares name := fun registration is => registers ⟨registration, is⟩
        exact .inl ⟨first.hasRule spares had, List.forall_mem_cons.mpr ⟨spares, spared⟩⟩
    · exact .inr ⟨registration, ⟨event :: before, after, rfl, last⟩, same⟩

end

/-! ### Journals -/

namespace Expansion

/-- A journal holds resolutions only. -/
theorem resolved_of_mem_journal [Draws ρ] {recording : Bool} {depth : Nat} {text : List Char}
    {run : Run ρ ω} :
    ∀ event ∈ journal recording depth text run, ∃ name given, event = .resolved name given := by
  intro event member
  rw [journal_eq] at member
  obtain ⟨entry, -, is⟩ := List.mem_filterMap.mp member
  rw [Resolution.event?] at is
  split at is <;> cases is
  exact ⟨_, _, rfl⟩

end Expansion

/-! ### Runs of sessions -/

namespace Session

/-- An action of a run, and the session that it is done in. -/
structure Stage (ρ ω : Type) where
  session : Session ρ ω
  action : Action ω

variable [Draws ρ] [Seeded ρ] [World ω]

/-- What the action does to the rules. -/
def Stage.events (stage : Stage ρ ω) : List (Event ω) := stage.session.events stage.action

/-- The actions of a run, each with the session that it is done in. -/
def stages (session : Session ρ ω) : List (Action ω) → List (Stage ρ ω)
  | [] => []
  | action :: rest => ⟨session, action⟩ :: stages (session.act action).2 rest

/-- A rule behind a run was there at the beginning and no action registered anything under its name,
or it is what one of them registered last, and none of those behind. -/
theorem origin_run {session : Session ρ ω} {actions : List (Action ω)} {name : String}
    {rule : Rule ω} (has : (session.run actions).engine.rules.HasRule name rule) :
    (session.engine.rules.HasRule name rule ∧
      ∀ stage ∈ session.stages actions, ∀ event ∈ stage.events, event.Spares name) ∨
    ∃ before stage after registration, session.stages actions = before ++ stage :: after ∧
      LastRegistered name registration stage.events ∧ registration.rule.reset = rule.reset ∧
      ∀ later ∈ after, ∀ event ∈ later.events, event.Spares name := by
  induction actions generalizing session with
  | nil => exact .inl ⟨has, fun _ member => absurd member List.not_mem_nil⟩
  | cons action rest ih =>
    rcases ih has with ⟨had, spared⟩ | ⟨before, stage, after, registration, split, last⟩
    · rcases (history_act session action).origin had with ⟨had, spares⟩ | ⟨registration, last, same⟩
      · exact .inl ⟨had, List.forall_mem_cons.mpr ⟨spares, spared⟩⟩
      · exact .inr ⟨[], ⟨session, action⟩, _, registration, rfl, last, same, spared⟩
    · refine .inr ⟨⟨session, action⟩ :: before, stage, after, registration, ?_, last⟩
      rw [stages, split, List.cons_append]

end Session

end TextGrammar
