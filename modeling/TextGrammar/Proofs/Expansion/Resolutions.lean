import TextGrammar.Proofs.Expansion.Step

/-!
The rules that a generation resolves, each with the run that it is resolved in. Main statement: the
resolutions, failed ones included, lead from the run at the beginning to the run at the end; nothing
else happens between them but that results are recorded.
-/

namespace TextGrammar

/-- A rule that is resolved, its name, and the run before. -/
structure Resolution (ρ ω : Type) where
  name : String
  rule : Rule ω
  run : Run ρ ω

namespace Expansion

open Effect

variable {ρ ω : Type}

/-- The resolutions lead from a run to a run. Between them results may be recorded, if they are to
be recorded at all. -/
inductive Passes [Draws ρ] (recording : Bool) :
    List (Resolution ρ ω) → Run ρ ω → Run ρ ω → Prop where
  | done {run : Run ρ ω} : Passes recording [] run run
  | resolved {name : String} {rule : Rule ω} {run later : Run ρ ω} {log : List (Resolution ρ ω)}
      (found : run.engine.rules.get? name = some rule)
      (behind : Passes recording log (resolve name rule run).2 later) :
      Passes recording (⟨name, rule, run⟩ :: log) run later
  | recorded {name value : String} {run later : Run ρ ω} {log : List (Resolution ρ ω)}
      (records : recording = true)
      (behind : Passes recording log { run with engine := run.engine.record name value } later) :
      Passes recording log run later

section

variable [Draws ρ] {recording : Bool} {run between later : Run ρ ω}
  {log more : List (Resolution ρ ω)}

theorem Passes.append (passes : Passes recording log run between)
    (goesOn : Passes recording more between later) : Passes recording (log ++ more) run later := by
  induction passes with
  | done => exact goesOn
  | resolved found _ ih => exact .resolved found (ih goesOn)
  | recorded records _ ih => exact .recorded records (ih goesOn)

/-- What resolving and recording keep holds in every run that a rule is resolved in, and at the
end. -/
theorem Passes.invariant (holds : Run ρ ω → Prop)
    (resolves : ∀ name rule run, run.engine.rules.get? name = some rule → holds run →
      holds (resolve name rule run).2)
    (records : ∀ name value run, recording = true → holds run →
      holds { run with engine := run.engine.record name value })
    (passes : Passes recording log run later) (start : holds run) :
    (∀ entry ∈ log, entry.run.engine.rules.get? entry.name = some entry.rule ∧ holds entry.run) ∧
      holds later := by
  induction passes with
  | done => exact ⟨fun _ member => absurd member List.not_mem_nil, start⟩
  | resolved found _ ih =>
    obtain ⟨entries, last⟩ := ih (resolves _ _ _ found start)
    exact ⟨List.forall_mem_cons.mpr ⟨⟨found, start⟩, entries⟩, last⟩
  | recorded recording _ ih => exact ih (records _ _ _ recording start)

end

/-! ### The log of an expansion -/

variable [Draws ρ]

/-- The resolutions of a slot: that of its rule, and if it gives a text, those inside of it. On the
last level, where there is no `inner`, there are none. -/
def slotLog (inner : Option (List Char → Run ρ ω → List (Resolution ρ ω))) (name : String)
    (run : Run ρ ω) : List (Resolution ρ ω) :=
  match run.engine.rules.get? name, inner with
  | some rule, some inner =>
    ⟨name, rule, run⟩ :: match resolve name rule run with
      | (.ok text, later) => inner text.toList later
      | (.error _, _) => []
  | _, _ => []

/-- The resolutions of the slots of segments, up to the first slot that fails. -/
def segmentsLog (slot : String → Expansion ρ ω (List Char))
    (log : String → Run ρ ω → List (Resolution ρ ω)) :
    List Segment → Run ρ ω → List (Resolution ρ ω)
  | [], _ => []
  | .plain _ :: rest, run => segmentsLog slot log rest run
  | .slot name :: rest, run =>
    log name run ++ match slot name run with
      | (.ok _, later) => segmentsLog slot log rest later
      | (.error _, _) => []

/-- The resolutions of an expansion that begins in a run, in their order. -/
def log (recording : Bool) : Nat → List Char → Run ρ ω → List (Resolution ρ ω)
  | 0, text => segmentsLog (slot recording none) (slotLog none) (Segment.ofText text)
  | depth + 1, text =>
    segmentsLog (slot recording (some fun inner => expand recording depth inner))
      (slotLog (some fun inner => log recording depth inner)) (Segment.ofText text)

/-- The resolutions of a generation. -/
def resolutions (text : String) (preserve : Bool) (run : Run ρ ω) : List (Resolution ρ ω) :=
  log preserve run.engine.maxDepth.toNat text.toList (prepared preserve run)

/-! ### What the log says -/

/-- From every run, the log leads to the run behind the step. -/
def Traces {α : Type} (recording : Bool) (log : Run ρ ω → List (Resolution ρ ω))
    (step : Expansion ρ ω α) : Prop :=
  ∀ run, Passes recording (log run) run (step run).2

/-- A second step that does nothing has no part in the log. -/
theorem Traces.bind {α β : Type} {recording : Bool} {log : Run ρ ω → List (Resolution ρ ω)}
    {step : Expansion ρ ω α} {next : α → Expansion ρ ω β} (traces : Traces recording log step)
    (idle : ∀ value run, (next value run).2 = run) : Traces recording log (step >>= next) := by
  intro run
  have same : ((step >>= next) run).2 = (step run).2 := bind_leaves id idle run
  rw [same]
  exact traces run

theorem passes_record (recording : Bool) (name : String) (value : List Char) (run : Run ρ ω) :
    Passes recording [] run (record recording name value run).2 := by
  cases recording with
  | false => exact .done
  | true => exact .recorded rfl .done

theorem slotLog_none (name : String) (run : Run ρ ω) : slotLog none name run = [] := by
  unfold slotLog
  cases run.engine.rules.get? name <;> rfl

theorem traces_slot_none (recording : Bool) (name : String) :
    Traces recording (slotLog none name) (slot (ρ := ρ) (ω := ω) recording none name) := by
  intro run
  rw [slotLog_none]
  cases found : run.engine.rules.get? name with
  | none => exact slot_of_absent found ▸ .done
  | some rule => exact slot_of_found_none found ▸ .done

theorem traces_slot_some {recording : Bool} {inner : List Char → Expansion ρ ω (List Char)}
    {innerLog : List Char → Run ρ ω → List (Resolution ρ ω)}
    (traces : ∀ text, Traces recording (innerLog text) (inner text)) (name : String) :
    Traces recording (slotLog (some innerLog) name) (slot recording (some inner) name) := by
  intro run
  cases found : run.engine.rules.get? name with
  | none =>
    simp only [slotLog, found]
    exact slot_of_absent found ▸ .done
  | some rule =>
    simp only [slotLog, found]
    rw [slot_of_found_some found, bind_apply]
    refine .resolved found ?_
    rcases resolve name rule run with ⟨failure | text, later⟩
    · exact .done
    · have inside := traces text.toList later
      simp only [bind_apply]
      rcases given : inner text.toList later with ⟨failure | value, last⟩
      · rwa [given] at inside
      · rw [given] at inside
        have recorded := inside.append (passes_record recording name value last)
        rw [List.append_nil] at recorded
        simp only
        obtain ⟨context, same⟩ := record_apply recording name value last
        rw [same] at recorded ⊢
        exact recorded

theorem traces_segments {recording : Bool} {slot : String → Expansion ρ ω (List Char)}
    {slotLog : String → Run ρ ω → List (Resolution ρ ω)}
    (traces : ∀ name, Traces recording (slotLog name) (slot name)) (pieces : List Segment) :
    Traces recording (segmentsLog slot slotLog pieces) (segments slot pieces) := by
  induction pieces with
  | nil => exact fun run => .done
  | cons first rest ih =>
    intro run
    cases first with
    | plain characters => exact ih.bind (fun _ _ => rfl) run
    | slot name =>
      have traced := traces name run
      rw [segments, bind_apply, segmentsLog]
      rcases given : slot name run with ⟨failure | value, later⟩
      · rw [given] at traced
        simpa using traced
      · rw [given] at traced
        exact traced.append (ih.bind (fun _ _ => rfl) later)

/-- The log of an expansion leads to the run behind it. -/
theorem traces_expand (recording : Bool) (depth : Nat) (text : List Char) :
    Traces recording (log recording depth text)
      (expand (ρ := ρ) (ω := ω) recording depth text) := by
  induction depth generalizing text with
  | zero => exact traces_segments (traces_slot_none recording) (Segment.ofText text)
  | succ depth ih => exact traces_segments (traces_slot_some ih) (Segment.ofText text)

/-- The resolutions of a generation lead to the run behind it. -/
theorem passes_resolutions (text : String) (preserve : Bool) (run : Run ρ ω) :
    Passes preserve (resolutions text preserve run) (prepared preserve run)
      (generate text preserve run).2 := by
  have traced : Traces preserve (log preserve run.engine.maxDepth.toNat text.toList)
      (expand preserve run.engine.maxDepth.toNat text.toList >>= fun expanded =>
        modified (ρ := ρ) (ω := ω) (String.ofList expanded)) :=
    (traces_expand preserve run.engine.maxDepth.toNat text.toList).bind fun expanded run => by
      rw [modified_apply]
  rw [generate_apply]
  exact traced (prepared preserve run)

/-! ### The rules that are resolved -/

/-- Choosing among values leaves the world alone. -/
theorem world_uniform (values : List Value) (sources : Sources ρ ω) :
    (Pick.uniform values sources).2.world = sources.world := by
  unfold Pick.uniform
  by_cases positive : 0 < values.length
  · simp only [dif_pos positive]
    exact bind_leaves Sources.world (fun _ _ => rfl) sources
  · simp only [dif_neg positive]
    rfl

/-- Resolving a rule has the outcome of its pick, and leaves the same world. -/
theorem resolve_eq_pick (name : String) (rule : Rule ω) (run : Run ρ ω) :
    (resolve name rule run).1 =
      (rule.pick run.engine.context ⟨run.engine.generator, run.world, run.notes⟩).1 ∧
    (resolve name rule run).2.world =
      (rule.pick run.engine.context ⟨run.engine.generator, run.world, run.notes⟩).2.world := by
  rcases picked : rule.pick run.engine.context ⟨run.engine.generator, run.world, run.notes⟩
    with ⟨failure | text, sources⟩
  · rw [resolve_of_error picked]
    exact ⟨rfl, rfl⟩
  · rw [resolve_of_ok picked]
    exact ⟨rfl, rfl⟩

/-- Resolving a function rule calls its handler with its parameters, and does nothing else to the
world. A failure of the handler ends it. -/
theorem resolve_function (name : String) (handler : Handler ω) (parameters : Fields)
    (run : Run ρ ω) :
    (resolve name (.function handler parameters) run).2.world = (handler parameters run.world).2 ∧
      ∀ failure, (handler parameters run.world).1 = .error failure →
        (resolve name (.function handler parameters) run).1 = .error failure := by
  obtain ⟨outcome, world⟩ := resolve_eq_pick name (.function handler parameters) run
  rw [outcome, world]
  constructor
  · refine bind_leaves Sources.world (fun value sources => ?_) _
    rw [bind_apply]
    cases value.elements with
    | error reason => rfl
    | ok elements => exact world_uniform elements sources
  · intro failure failed
    rw [Rule.pick, bind_apply, Pick.call]
    rcases called : handler parameters run.world with ⟨result, later⟩
    rw [called] at failed
    cases failed
    rfl

theorem stemsFrom_resolve {start : Engine ρ ω} {run : Run ρ ω} {name : String} {rule : Rule ω}
    (stems : Run.StemsFrom start run) (found : run.engine.rules.get? name = some rule) :
    Run.StemsFrom start (resolve name rule run).2 := by
  have anything (context : Table String) : Keeps (fun _ => True) (fun _ => True) (fun _ => True)
      (rule.pick (ρ := ρ) context) := fun sources _ =>
    ⟨trivial, by cases (rule.pick context sources).1 <;> trivial⟩
  exact (keeps_resolve (hasRule_of_found stems found) anything run stems).1

/-- Every rule that a generation resolves is the one that the engine has under its name, in a run
that stems from the engine, and so does the run at the end. -/
theorem stemsFrom_generate (text : String) (preserve : Bool) (run : Run ρ ω) :
    (∀ entry ∈ resolutions text preserve run,
      entry.run.engine.rules.get? entry.name = some entry.rule ∧
        Run.StemsFrom run.engine entry.run) ∧
      Run.StemsFrom run.engine (generate text preserve run).2 :=
  (passes_resolutions text preserve run).invariant (Run.StemsFrom run.engine)
    (fun _ _ _ found stems => stemsFrom_resolve stems found)
    (fun _ _ _ _ stems => ⟨stems.rules, stems.modifiers, stems.maxDepth⟩)
    (stemsFrom_prepared preserve run)

/-- A rule that a generation resolves is the one that the engine had under its name. -/
theorem hasRule_of_resolution {text : String} {preserve : Bool} {run : Run ρ ω}
    {entry : Resolution ρ ω} (member : entry ∈ resolutions text preserve run) :
    run.engine.rules.HasRule entry.name entry.rule := by
  obtain ⟨found, stems⟩ := (stemsFrom_generate text preserve run).1 entry member
  exact hasRule_of_found stems found

end Expansion

end TextGrammar
