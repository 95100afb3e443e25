import TextGrammar.Proofs.Expansion.Resolutions
import TextGrammar.Proofs.Rule.Worlds

/-!
Generations in two worlds. Main statement: if every rule that is resolved respects a relation of
worlds, a generation has the same outcome in related worlds and leaves engines behind that are the
same.
-/

namespace TextGrammar

variable {ρ ω : Type}

/-- The runs are the same but for their worlds, which are related. -/
structure Run.Alike (related : ω → ω → Prop) (run run' : Run ρ ω) : Prop where
  engine : run.engine = run'.engine
  notes : run.notes = run'.notes
  world : related run.world run'.world

namespace Expansion

open Effect

variable {related : ω → ω → Prop} {α β : Type}

/-- If every rule that the log of a run names respects the relation, the step has the same outcome
from alike runs and leaves alike runs behind. -/
def SteadyIf (related : ω → ω → Prop) (log : Run ρ ω → List (Resolution ρ ω))
    (step : Expansion ρ ω α) : Prop :=
  ∀ run run', Run.Alike related run run' → (∀ entry ∈ log run, entry.rule.Respects related) →
    (step run).1 = (step run').1 ∧ Run.Alike related (step run).2 (step run').2

/-- A second step that resolves nothing has no part in the log. -/
theorem SteadyIf.bind {log : Run ρ ω → List (Resolution ρ ω)} {step : Expansion ρ ω α}
    {next : α → Expansion ρ ω β} (steady : SteadyIf related log step)
    (goesOn : ∀ value, Agree (Run.Alike related) (next value) (next value)) :
    SteadyIf related log (step >>= next) := by
  intro run run' alike respects
  exact agree_behind (steady run run' alike respects) fun value later later' _ kept =>
    goesOn value later later' kept

theorem agree_record (recording : Bool) (name : String) (value : List Char) :
    Agree (Run.Alike related) (record recording name value : Expansion ρ ω Unit)
      (record recording name value) := by
  rintro ⟨engine, world, notes⟩ ⟨_, world', _⟩ ⟨rfl, rfl, holds⟩
  cases recording <;> exact ⟨rfl, rfl, rfl, holds⟩

theorem agree_modified (text : String) :
    Agree (Run.Alike related) (modified text : Expansion ρ ω String) (modified text) := by
  rintro ⟨engine, world, notes⟩ ⟨_, world', _⟩ ⟨rfl, rfl, holds⟩
  rw [modified_apply, modified_apply]
  exact ⟨rfl, rfl, rfl, holds⟩

variable [Draws ρ]

theorem agree_resolve {rule : Rule ω} (respects : rule.Respects related) (name : String) :
    Agree (Run.Alike related) (resolve name rule : Expansion ρ ω String) (resolve name rule) := by
  rintro ⟨engine, world, notes⟩ ⟨_, world', _⟩ ⟨rfl, rfl, holds⟩
  obtain ⟨same, generator, reported, kept⟩ := Rule.steady_pick respects engine.context
    ⟨engine.generator, world, notes⟩ ⟨engine.generator, world', notes⟩ ⟨rfl, rfl, holds⟩
  rcases picked : rule.pick engine.context ⟨engine.generator, world, notes⟩
    with ⟨outcome, generator', later, reports⟩
  rcases picked' : rule.pick engine.context ⟨engine.generator, world', notes⟩
    with ⟨outcome', generator'', later', reports'⟩
  rw [picked, picked'] at same generator reported kept
  obtain rfl : outcome = outcome' := same
  obtain rfl : generator' = generator'' := generator
  obtain rfl : reports = reports' := reported
  simp only [resolve, picked, picked']
  cases outcome <;> exact ⟨rfl, rfl, rfl, kept⟩

theorem steady_slot_none (recording : Bool) (name : String) :
    SteadyIf related (slotLog none name) (slot recording none name : Expansion ρ ω _) := by
  intro run run' alike _
  cases found : run.engine.rules.get? name with
  | none =>
    have found' : run'.engine.rules.get? name = none := alike.engine ▸ found
    rw [slot_of_absent found, slot_of_absent found']
    exact ⟨rfl, alike⟩
  | some rule =>
    have found' : run'.engine.rules.get? name = some rule := alike.engine ▸ found
    rw [slot_of_found_none found, slot_of_found_none found', alike.engine]
    exact ⟨rfl, alike⟩

theorem steady_slot_some {recording : Bool} {inner : List Char → Expansion ρ ω (List Char)}
    {innerLog : List Char → Run ρ ω → List (Resolution ρ ω)}
    (steady : ∀ text, SteadyIf related (innerLog text) (inner text)) (name : String) :
    SteadyIf related (slotLog (some innerLog) name) (slot recording (some inner) name) := by
  intro run run' alike respects
  cases found : run.engine.rules.get? name with
  | none =>
    have found' : run'.engine.rules.get? name = none := alike.engine ▸ found
    rw [slot_of_absent found, slot_of_absent found']
    exact ⟨rfl, alike⟩
  | some rule =>
    have found' : run'.engine.rules.get? name = some rule := alike.engine ▸ found
    rw [slot_of_found_some found, slot_of_found_some found']
    simp only [slotLog, found] at respects
    obtain ⟨first, behind⟩ := List.forall_mem_cons.mp respects
    refine agree_behind (agree_resolve first name run run' alike)
      fun text later later' given kept => ?_
    simp only [given] at behind
    have inside : SteadyIf related (innerLog text.toList)
        (do let value ← inner text.toList; record recording name value; return value) :=
      (steady text.toList).bind fun value =>
        agree_bind (agree_record recording name value) fun _ => agree_pure value
    exact inside later later' kept behind

omit [Draws ρ] in
theorem steady_segments {slot : String → Expansion ρ ω (List Char)}
    {slotLog : String → Run ρ ω → List (Resolution ρ ω)}
    (steady : ∀ name, SteadyIf related (slotLog name) (slot name)) (pieces : List Segment) :
    SteadyIf related (segmentsLog slot slotLog pieces) (segments slot pieces) := by
  induction pieces with
  | nil => exact fun run run' alike _ => ⟨rfl, alike⟩
  | cons first rest ih =>
    cases first with
    | plain characters => exact ih.bind fun more => agree_pure _
    | slot name =>
      intro run run' alike respects
      rw [segmentsLog] at respects
      obtain ⟨inside, behind⟩ := List.forall_mem_append.mp respects
      rw [segments]
      refine agree_behind (steady name run run' alike inside)
        fun value later later' given kept => ?_
      simp only [given] at behind
      exact (ih.bind fun more => agree_pure _) later later' kept behind

/-- If the rules that an expansion resolves respect a relation, it is the same in related worlds. -/
theorem steady_expand (recording : Bool) (depth : Nat) (text : List Char) :
    SteadyIf related (log recording depth text)
      (expand (ρ := ρ) (ω := ω) recording depth text) := by
  induction depth generalizing text with
  | zero => exact steady_segments (steady_slot_none recording) (Segment.ofText text)
  | succ depth ih => exact steady_segments (steady_slot_some ih) (Segment.ofText text)

/-- If the rules that a generation resolves respect a relation, it is the same in related worlds. -/
theorem steady_generate (text : String) (preserve : Bool) :
    SteadyIf related (resolutions text preserve)
      (generate text preserve : Expansion ρ ω String) := by
  rintro run ⟨_, world', _⟩ ⟨rfl, rfl, holds⟩ respects
  have steady : SteadyIf related (log preserve run.engine.maxDepth.toNat text.toList)
      (expand preserve run.engine.maxDepth.toNat text.toList >>= fun expanded =>
        modified (ρ := ρ) (ω := ω) (String.ofList expanded)) :=
    (steady_expand preserve run.engine.maxDepth.toNat text.toList).bind fun expanded =>
      agree_modified _
  have alike : Run.Alike related (prepared preserve run)
      (prepared preserve ⟨run.engine, world', run.notes⟩) := by
    cases preserve <;> exact ⟨rfl, rfl, holds⟩
  rw [generate_apply, generate_apply]
  exact steady _ _ alike respects

end Expansion

end TextGrammar
