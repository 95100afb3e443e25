import TextGrammar.Proofs.History.Journal
import TextGrammar.Proofs.Loading.Related
import TextGrammar.Session

/-!
The history of a session: what its actions do to the rules of the engine. Main statement: the
history of any run leads from the rules at its beginning to those at its end.
-/

namespace TextGrammar

variable {ρ ω : Type}

/-- What a request does to the rules: settings and modifiers do nothing. -/
def Request.events : Request ω → List (Event ω)
  | .register name registration => [.registered name registration]
  | .setMaxDepth _ | .setSeed _ | .loadModifier _ => []

theorem rules_of_setMaxDepth {engine limited : Engine ρ ω} {depth : Int}
    (set : engine.setMaxDepth depth = .ok limited) : limited.rules = engine.rules := by
  unfold Engine.setMaxDepth at set
  split at set
  · cases set
  · cases set
    rfl

theorem rules_loadModifier (engine : Engine ρ ω) (name : String) :
    (engine.loadModifier name).2.rules = engine.rules := by
  unfold Engine.loadModifier
  split <;> rfl

theorem rules_of_setContext {engine filled : Engine ρ ω} {fields : Fields}
    (set : engine.setContext fields = .ok filled) : filled.rules = engine.rules := by
  obtain ⟨texts, -, same⟩ := Effect.bind_eq_ok.mp set
  cases same
  rfl

theorem history_perform [Draws ρ] [Seeded ρ] (engine : Engine ρ ω) (request : Request ω) :
    History ρ request.events engine.rules (engine.perform request).2.rules := by
  cases request with
  | register name registration => exact .single (.registered name registration)
  | setSeed seed => exact .done
  | setMaxDepth depth =>
    simp only [Engine.perform]
    cases set : engine.setMaxDepth depth with
    | error failure => exact .done
    | ok limited => exact rules_of_setMaxDepth set ▸ .done
  | loadModifier name => exact rules_loadModifier engine name ▸ .done

theorem history_performAll [Draws ρ] [Seeded ρ] (engine : Engine ρ ω)
    (requests : List (Request ω)) :
    History ρ (requests.flatMap Request.events) engine.rules
      (engine.performAll requests).rules := by
  induction requests generalizing engine with
  | nil => exact .done
  | cons request rest ih =>
    have first := history_perform engine request
    have behind := ih (engine.perform request).2
    exact History.append_iff.mpr ⟨_, first, behind⟩

namespace Session

variable [Draws ρ] [Seeded ρ] [World ω]

/-- What an action does to the rules of the engine. A load registers what it asks for, a generation
resolves rules, and most other actions have nothing to do with them. -/
def events (session : Session ρ ω) : Action ω → List (Event ω)
  | .load job =>
    (Load.trace (fun _ => true) (Load.run session.registry job)).2.flatMap Request.events
  | .register name registration => [.registered name registration]
  | .remove name => [.removed name]
  | .resetCursors => [.restarted]
  | .clear => [.cleared]
  | .generate text preserve =>
    Expansion.generateJournal text preserve ⟨session.engine, session.world, []⟩
  | _ => []

/-- What the actions of a run do to the rules, in their order. -/
def history (session : Session ρ ω) : List (Action ω) → List (Event ω)
  | [] => []
  | action :: rest => session.events action ++ history (session.act action).2 rest

/-- The events of an action lead to the rules behind it. -/
theorem history_act (session : Session ρ ω) (action : Action ω) :
    History ρ (session.events action) session.engine.rules
      (session.act action).2.engine.rules := by
  cases action with
  | load job =>
    have performed := history_performAll session.engine
      (Load.trace (fun _ => true) (Load.run session.registry job)).2
    rw [← Load.run_eq_performAll _ session.registry job session.engine []] at performed
    exact performed
  | register name registration => exact .single (.registered name registration)
  | remove name => exact .single (.removed name)
  | resetCursors => exact .single .restarted
  | clear => exact .single .cleared
  | generate text preserve =>
    exact Expansion.history_generate text preserve ⟨session.engine, session.world, []⟩
  | setMaxDepth depth =>
    simp only [act]
    cases set : session.engine.setMaxDepth depth with
    | error failure => exact .done
    | ok limited => exact rules_of_setMaxDepth set ▸ .done
  | loadModifier name => exact rules_loadModifier session.engine name ▸ .done
  | setContext fields =>
    simp only [act]
    cases set : session.engine.setContext fields with
    | error reason => exact .done
    | ok filled => exact rules_of_setContext set ▸ .done
  | define | undefine | clearFunctions | setSeed | clearSeed | clearContext | addModifier
  | clearModifiers => exact .done

/-- The history of a run leads to the rules behind it. -/
theorem history_run (session : Session ρ ω) (actions : List (Action ω)) :
    History ρ (session.history actions) session.engine.rules
      (session.run actions).engine.rules := by
  induction actions generalizing session with
  | nil => exact .done
  | cons action rest ih =>
    exact History.append_iff.mpr ⟨_, history_act session action, ih (session.act action).2⟩

end Session

end TextGrammar
