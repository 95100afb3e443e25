import TextGrammar.Proofs.Expansion.Resolutions

/-!
Generations that do not preserve the context. Main statement: whatever the context before, they end
alike, every rule is resolved in the empty context, and the empty context is left behind, whether
they fail or not.
-/

namespace TextGrammar

variable {ρ ω : Type}

/-- The run with another context. -/
def Run.withContext (run : Run ρ ω) (context : Table String) : Run ρ ω :=
  { run with engine := { run.engine with context } }

namespace Expansion

variable [Draws ρ]

/-- Resolving a rule leaves the context alone. -/
theorem context_resolve (name : String) (rule : Rule ω) (run : Run ρ ω) :
    (resolve name rule run).2.engine.context = run.engine.context := by
  rcases picked : rule.pick run.engine.context ⟨run.engine.generator, run.world, run.notes⟩
    with ⟨failure | text, sources⟩
  · rw [resolve_of_error picked]
  · rw [resolve_of_ok picked]

/-- As long as nothing is recorded, the context stays what it was. -/
theorem Passes.context_eq {log : List (Resolution ρ ω)} {run later : Run ρ ω}
    (passes : Passes false log run later) :
    (∀ entry ∈ log, entry.run.engine.context = run.engine.context) ∧
      later.engine.context = run.engine.context := by
  obtain ⟨entries, last⟩ := passes.invariant
    (fun other => other.engine.context = run.engine.context)
    (fun name rule other _ same => (context_resolve name rule other).trans same)
    (fun _ _ _ records _ => by cases records) rfl
  exact ⟨fun entry member => (entries entry member).2, last⟩

/-- A generation that does not preserve the context does not depend on it and leaves none. From two
runs that differ in their contexts only, it has the same outcome, resolves the same rules in the
same runs, and ends in the same run. Each rule is resolved in the empty context, and these
resolutions lead to a run with the empty context, whether the generation fails or not. -/
theorem generate_without_context (text : String) (run : Run ρ ω) (context : Table String) :
    generate text false (run.withContext context) = generate text false run ∧
    resolutions text false (run.withContext context) = resolutions text false run ∧
    Passes false (resolutions text false run) (run.withContext .empty)
      (generate text false run).2 ∧
    (∀ entry ∈ resolutions text false run, entry.run.engine.context = .empty) ∧
    (generate text false run).2.engine.context = .empty := by
  have passes := passes_resolutions text false run
  obtain ⟨entries, last⟩ := passes.context_eq
  refine ⟨?_, rfl, passes, entries, last⟩
  rw [generate_apply, generate_apply]
  rfl

end Expansion

end TextGrammar
