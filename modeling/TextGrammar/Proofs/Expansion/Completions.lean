import Mathlib
import TextGrammar.Proofs.Expansion.Context
import TextGrammar.Proofs.Expansion.Unfolding
import TextGrammar.Proofs.Rule.Decision
import TextGrammar.Random.Script

/-!
Generations that preserve the context. Main statement: the context behind one is the context before
it with the results of the completed expansions put into it, in their order, and every rule is
resolved in the context with the results that were completed before; whether the generation fails
or not.
-/

namespace TextGrammar.Expansion

open Effect

variable {ρ ω : Type}

/-! ### Completed expansions -/

/-- The name of the rule and the value, if an expansion is completed. -/
def Mark.completes? : Mark ρ ω → Option (String × String)
  | completed entry value => some (entry.name, String.ofList value)
  | opened _ | refused _ => none

/-- The names and the values of the completed expansions, in the order of their completion. -/
def completions (marks : List (Mark ρ ω)) : List (String × String) :=
  marks.filterMap Mark.completes?

variable [Draws ρ] {recording : Bool} {depth : Nat} {pieces : List Segment} {run later : Run ρ ω}
  {marks : List (Mark ρ ω)} {outcome : Except Failure (List Char)}

/-- If results are recorded, those of the completed expansions are put into the context, and nothing
else is. -/
theorem Leads.context_eq (leads : Leads true marks run later) :
    later.engine.context = run.engine.context.putAll (completions marks) := by
  induction leads with
  | done => rfl
  | next first _ ih =>
    rw [ih]
    cases first with
    | @opened name rule run found =>
      rw [context_resolve]
      rfl
    | completed => rfl
    | refused => rfl

/-- What an expansion is completed with is what its rule resolved to, fully expanded. -/
theorem Unfolds.value_eq (unfolds : Unfolds recording depth pieces run marks outcome later)
    {entry : Resolution ρ ω} {value : List Char} (member : .completed entry value ∈ marks) :
    ∃ text inside left between, resolve entry.name entry.rule entry.run = (.ok text, inside) ∧
      expand recording left text.toList inside = (.ok value, between) := by
  induction unfolds with
  | done => cases member
  | plain _ ih => exact ih member
  | absent _ _ ih => exact ih member
  | refused => cases List.mem_singleton.mp member
  | unresolved => cases List.mem_singleton.mp member
  | broken _ _ _ ih => exact ih ((List.mem_cons.mp member).resolve_left nofun)
  | @completed depth name text rule rest run inside between later marks more given outcome _
      resolves expands _ inner behind =>
    have member := (List.mem_cons.mp member).resolve_left nofun
    rcases List.mem_append.mp member with member | member
    · exact inner member
    · rcases List.mem_cons.mp member with same | member
      · cases same
        have given := expands.segments_eq
        rw [← expand_eq] at given
        exact ⟨text, inside, depth, between, resolves, given⟩
      · exact behind member

/-! ### Conditional rules -/

/-- Resolving a conditional rule gives what comes of what its branches come to in the context of the
run. -/
theorem resolve_conditional (name : String) {branches : List Branch} {run : Run ρ ω}
    {decided : Except Failure (List Value)}
    (decides : Decides run.engine.context branches decided) :
    Rule.ComesOf decided (resolve name (.conditional branches) run).1 := by
  obtain ⟨same, -⟩ := resolve_eq_pick name (.conditional branches) run
  rw [same]
  exact Pick.comesOf_conditional decides _

/-! ### Generating -/

/-- A generation that preserves the context has a course: marks of which each opens the expansion
of a rule that is resolved or completes the innermost one that is open. What is completed is what
the rule resolved to, fully expanded; if the text is expanded to its end, nothing is left
unfinished. The context behind the generation is the context before it with the completed results
put into it one after the other, and entries under other names keep their places and values. Every
rule is resolved in the context with the results that were completed before; this context decides on
the branches of a conditional rule, and the rule gives what comes of that. -/
theorem generate_with_context (text : String) (run : Run ρ ω) :
    ∃ (marks : List (Mark ρ ω)) (outcome : Except Failure (List Char))
      (unfinished : List (Resolution ρ ω)),
      Unfolds true run.engine.maxDepth.toNat (Segment.ofText text.toList) run marks outcome
        (generate text true run).2 ∧
      Nests run.engine.maxDepth.toNat marks [] unfinished ∧
      (outcome.isOk = true → unfinished = []) ∧
      marks.filterMap Mark.opens? = resolutions text true run ∧
      (∀ (entry : Resolution ρ ω) (value : List Char), .completed entry value ∈ marks →
        ∃ (resolved : String) (inside : Run ρ ω) (left : Nat) (between : Run ρ ω),
          resolve entry.name entry.rule entry.run = (.ok resolved, inside) ∧
            expand true left resolved.toList inside = (.ok value, between)) ∧
      (generate text true run).2.engine.context =
        run.engine.context.putAll (completions marks) ∧
      (∀ (place : Nat) (key value : String),
        run.engine.context.entries[place]? = some (key, value) →
          key ∉ (completions marks).map Prod.fst →
            (generate text true run).2.engine.context.entries[place]? = some (key, value)) ∧
      ∀ (front : List (Mark ρ ω)) (entry : Resolution ρ ω) (back : List (Mark ρ ω)),
        marks = front ++ .opened entry :: back →
          entry.run.engine.context = run.engine.context.putAll (completions front) ∧
            ∀ branches : List Branch, entry.rule = .conditional branches →
              ∃ decided : Except Failure (List Value),
                Decides (run.engine.context.putAll (completions front)) branches decided ∧
                  Rule.ComesOf decided (resolve entry.name entry.rule entry.run).1 := by
  obtain ⟨marks, unfolds⟩ := exists_marks true run.engine.maxDepth.toNat text.toList run
  have last : (generate text true run).2 =
      (expand true run.engine.maxDepth.toNat text.toList run).2 := generate_snd text true run
  rw [← last] at unfolds
  obtain ⟨unfinished, nests, finished⟩ := unfolds.nests_from_start
  have leads := unfolds.leads
  refine ⟨marks, _, unfinished, unfolds, nests, finished, unfolds.opens_log,
    fun _ _ => unfolds.value_eq, leads.context_eq, ?_, ?_⟩
  · intro place key value found apart
    rw [leads.context_eq]
    exact Table.getElem?_putAll_of_notMem found apart
  · rintro front entry back rfl
    obtain ⟨before, -⟩ := leads.before_opened
    have same := Leads.context_eq before
    refine ⟨same, ?_⟩
    intro branches conditional
    have decides := Rule.decides_chosen entry.run.engine.context branches
    refine ⟨Rule.chosen entry.run.engine.context branches, ?_, ?_⟩
    · rw [← same]
      exact decides
    · rw [conditional]
      exact resolve_conditional entry.name decides

/-- A greeting by name, once there is one. -/
def Doorstep.branches : List Branch :=
  [⟨some (.condition ⟨"context.name", .ok (.lookup "name")⟩), [.str "Good to see you"], none⟩,
    ⟨none, [], some [.str "Who is it?"]⟩]

def doorstep : Run Script Unit :=
  ⟨{ rules := ⟨[("name", .static [.str "Ann"]), ("greeting", .conditional Doorstep.branches)]⟩,
     modifiers := .empty, context := .empty, maxDepth := 1, seed := none, generator := ⟨[], []⟩ },
   (), []⟩

/-- A context with a name decides for the first branch. -/
theorem Doorstep.decides_of_name {context : Table String} {name : String}
    (known : context.get? "name" = some name) (filled : name ≠ "") :
    Decides context branches (.ok [.str "Good to see you"]) := by
  refine @Decides.guarded _ _ [] _ _ _ rfl (List.forall_mem_nil _) rfl ⟨true, rfl, ?_⟩
  intro given presents
  have found : given.lookup "name" = .ok (.str name) := by
    rw [presents, known]
    rfl
  exact iff_of_true rfl ⟨_, .str name, rfl, found, by simpa [Condition.isTrue, Value.truthy,
    Scalar.truthy] using filled⟩

/-- The name that was recorded when its expansion was completed decides on the second greeting. -/
theorem recorded_name_decides :
    (generate "%greeting% %name%! %greeting%" true doorstep).1 =
      .ok "Who is it? Ann! Good to see you" ∧
    ∃ (front back : List (Mark Script Unit)) (entry : Resolution Script Unit),
      (front ++ .opened entry :: back).filterMap Mark.opens? =
        resolutions "%greeting% %name%! %greeting%" true doorstep ∧
      entry.rule = .conditional Doorstep.branches ∧
      (doorstep.engine.context.putAll (completions front)).entries =
        [("greeting", "Who is it?"), ("name", "Ann")] ∧
      Decides (doorstep.engine.context.putAll (completions front)) Doorstep.branches
        (.ok [.str "Good to see you"]) ∧
      (resolve entry.name entry.rule entry.run).1 = .ok "Good to see you" := by
  have logged : ((resolutions "%greeting% %name%! %greeting%" true doorstep).map fun entry =>
      (entry.rule, entry.run.engine.context.entries)) =
        [(.conditional Doorstep.branches, []), (.static [.str "Ann"], [("greeting", "Who is it?")]),
          (.conditional Doorstep.branches, [("greeting", "Who is it?"), ("name", "Ann")])] := by cbv
  obtain ⟨marks, -, -, -, -, -, opens, -, -, -, before⟩ :=
    generate_with_context "%greeting% %name%! %greeting%" doorstep
  have third : (Rule.conditional Doorstep.branches, [("greeting", "Who is it?"), ("name", "Ann")]) ∈
      (resolutions "%greeting% %name%! %greeting%" true doorstep).map fun entry =>
        (entry.rule, entry.run.engine.context.entries) := by
    rw [logged]
    exact List.mem_cons_of_mem _ (List.mem_cons_of_mem _ List.mem_cons_self)
  obtain ⟨entry, member, same⟩ := List.mem_map.mp third
  obtain ⟨rule, recorded⟩ := Prod.mk.inj same
  rw [← opens] at member
  obtain ⟨mark, among, given⟩ := List.mem_filterMap.mp member
  obtain ⟨front, back, rfl⟩ := List.append_of_mem among
  cases mark with
  | completed | refused => cases given
  | opened other =>
    cases given
    obtain ⟨context, decided⟩ := before front entry back rfl
    obtain ⟨outcome, decides, comes⟩ := decided _ rule
    rw [context] at recorded
    have known : (doorstep.engine.context.putAll (completions front)).get? "name" = some "Ann" := by
      rw [Table.get?, recorded]
      rfl
    have expected := Doorstep.decides_of_name known (by decide)
    cases decides.unique expected
    refine ⟨by cbv, front, back, entry, opens, rule, recorded, expected, ?_⟩
    rcases comes with ⟨impossible, -⟩ | ⟨value, chosen, same⟩
    · cases impossible
    · rw [List.mem_singleton.mp chosen] at same
      exact same

/-- A greeting, and a farewell that breaks off. -/
def visit : Run Script Unit :=
  ⟨{ rules := ⟨[("name", .static [.str "you"]), ("greeting", .static [.str "hello %name%"]),
       ("farewell", .static [.str "bye %name%%reason%"]),
       ("reason", .function (fun _ => throw (.refused "no reason")) [])]⟩,
     modifiers := .empty, context := ⟨[("greeting", "hi"), ("mood", "fine")]⟩, maxDepth := 2,
     seed := none, generator := ⟨[], []⟩ }, (), []⟩

/-- The name and the greeting are completed, the farewell and its reason are not. -/
example : (generate "%greeting%, %farewell%" true visit).1 = .error (.refused "no reason") ∧
    (generate "%greeting%, %farewell%" true visit).2.engine.context.entries =
      [("greeting", "hello you"), ("mood", "fine"), ("name", "you")] :=
  ⟨by cbv, by cbv⟩

end TextGrammar.Expansion
