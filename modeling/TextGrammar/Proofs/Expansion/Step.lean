import TextGrammar.Engine.Expansion
import TextGrammar.Proofs.Effect
import TextGrammar.Proofs.Rule.Texts
import TextGrammar.Proofs.Slot.Filled

/-!
The steps of an expansion: what a slot gives, and what segments give if their slots do. Through
all of them the rules stay what they were, apart from the places of sequential ones.
-/

namespace TextGrammar

/-- A run of an engine that was given at the start. Its context, its generator and the places of
its sequential rules may be others by now. -/
structure Run.StemsFrom {ρ ω : Type} (start : Engine ρ ω) (run : Run ρ ω) : Prop where
  rules : run.engine.rules.mapValues Rule.reset = start.rules.mapValues Rule.reset
  modifiers : run.engine.modifiers = start.modifiers
  maxDepth : run.engine.maxDepth = start.maxDepth

/-- The table has the rule under the name, perhaps at another place. -/
def Table.HasRule {ω : Type} (rules : Table (Rule ω)) (name : String) (rule : Rule ω) : Prop :=
  (rules.get? name).map Rule.reset = some rule.reset

/-- The rule that the table has is the one under the name in every respect but its place. -/
theorem Table.HasRule.exists_entry {ω : Type} {rules : Table (Rule ω)} {name : String}
    {rule : Rule ω} (has : rules.HasRule name rule) :
    ∃ kept, rules.get? name = some kept ∧ kept.reset = rule.reset :=
  Option.map_eq_some_iff.mp has

namespace Rule

variable {ω : Type} {rule : Rule ω}

theorem candidates_reset : rule.reset.candidates = rule.candidates := by cases rule <;> rfl

theorem shows_reset {text : String} : rule.reset.Shows text ↔ rule.Shows text := by
  rw [Shows, candidates_reset, Shows]

theorem raises_reset {context : Table String} {world : ω} {failure : Failure} :
    rule.reset.Raises context world failure ↔ rule.Raises context world failure := by
  cases rule <;> rfl

end Rule

theorem Table.HasRule.exists_raises {ω : Type} {rules : Table (Rule ω)} {name : String}
    {rule : Rule ω} (has : rules.HasRule name rule) {context : Table String} {world : ω}
    {failure : Failure} (raises : rule.Raises context world failure) :
    ∃ entry ∈ rules.entries, entry.2.Raises context world failure := by
  obtain ⟨kept, found, same⟩ := has.exists_entry
  refine ⟨(name, kept), mem_of_get? found, ?_⟩
  rwa [← Rule.raises_reset, same, Rule.raises_reset]

/-- A rule at another place shows what it shows in the table. -/
theorem Table.HasRule.exists_shows {ω : Type} {rules : Table (Rule ω)} {name : String}
    {rule : Rule ω} (has : rules.HasRule name rule) : ∃ kept, rules.get? name = some kept ∧
      ∀ text, rule.Shows text ↔ kept.Shows text := by
  obtain ⟨kept, found, same⟩ := has.exists_entry
  refine ⟨kept, found, fun text => ?_⟩
  rw [← Rule.shows_reset, ← same, Rule.shows_reset]

/-- No handler, guard or modifier of the engine gives a failure about a depth limit itself. -/
structure Engine.Shallow {ρ ω : Type} (engine : Engine ρ ω) : Prop where
  rules : ∀ entry ∈ engine.rules.entries, ∀ context world failure,
    entry.2.Raises context world failure → failure.Shallow
  modifiers : ∀ entry ∈ engine.modifiers.entries, ∀ text failure,
    entry.2 text = .error failure → failure.Shallow

namespace Engine.Shallow

variable {ρ ω : Type} {engine : Engine ρ ω} (shallow : engine.Shallow)

include shallow

theorem of_raises {name : String} {rule : Rule ω} (has : engine.rules.HasRule name rule)
    {context : Table String} {world : ω} {failure : Failure}
    (raises : rule.Raises context world failure) : failure.Shallow := by
  obtain ⟨entry, member, raises⟩ := has.exists_raises raises
  exact shallow.rules entry member context world failure raises

theorem shallow_of_foldlM {text : String} {failure : Failure}
    (failed : engine.modifiers.entries.foldlM (fun text entry => entry.2 text) text =
      .error failure) : failure.Shallow := by
  have mild := shallow.modifiers
  generalize engine.modifiers.entries = modifiers at failed mild
  induction modifiers generalizing text with
  | nil => cases failed
  | cons entry rest ih =>
    rw [List.foldlM_cons] at failed
    rcases Effect.bind_eq_error.mp failed with here | ⟨changed, -, behind⟩
    · exact mild entry List.mem_cons_self text _ here
    · exact ih behind fun other member => mild other (List.mem_cons_of_mem _ member)

end Engine.Shallow

namespace Expansion

open Effect Run

variable {ρ ω : Type} {start : Engine ρ ω} {run : Run ρ ω} {name : String} {rule : Rule ω}

theorem reset_advance (rule : Rule ω) : rule.advance.reset = rule.reset := by
  cases rule with
  | sequential values cycle cursor =>
    by_cases empty : values.isEmpty
    · simp [Rule.advance, empty]
    · simp [Rule.advance, empty, Rule.reset]
  | _ => rfl

theorem hasRule_of_found (stems : StemsFrom start run)
    (found : run.engine.rules.get? name = some rule) : start.rules.HasRule name rule := by
  have same := congrArg (Table.get? · name) stems.rules
  simp only [Table.get?_mapValues, found] at same
  exact same.symm

theorem absent_iff (stems : StemsFrom start run) :
    run.engine.rules.get? name = none ↔ start.rules.get? name = none := by
  have same := congrArg (Table.get? · name) stems.rules
  simp only [Table.get?_mapValues] at same
  rw [← Option.map_eq_none_iff (f := Rule.reset), same, Option.map_eq_none_iff]

/-! ### Resolving and recording -/

/-- A rule of the start may be put back at its next place. -/
theorem put_advance (stems : StemsFrom start run) (has : start.rules.HasRule name rule) :
    (run.engine.rules.put name rule.advance).mapValues Rule.reset =
      start.rules.mapValues Rule.reset := by
  rw [Table.mapValues_put, stems.rules, reset_advance]
  apply Table.put_eq_self
  rw [Table.get?_mapValues]
  exact has

theorem resolve_of_ok [Draws ρ] {text : String} {sources : Sources ρ ω}
    (picked : rule.pick run.engine.context ⟨run.engine.generator, run.world, run.notes⟩ =
      (.ok text, sources)) :
    resolve name rule run = (.ok text,
      ⟨{ run.engine with
          rules := run.engine.rules.put name rule.advance, generator := sources.generator },
        sources.world, sources.notes⟩) := by
  simp only [resolve, picked]

theorem resolve_of_error [Draws ρ] {failure : Failure} {sources : Sources ρ ω}
    (picked : rule.pick run.engine.context ⟨run.engine.generator, run.world, run.notes⟩ =
      (.error failure, sources)) :
    resolve name rule run = (.error failure,
      ⟨{ run.engine with generator := sources.generator }, sources.world, sources.notes⟩) := by
  simp only [resolve, picked]

theorem keeps_resolve [Draws ρ] {gives : String → Prop} {fails : Failure → Prop}
    (has : start.rules.HasRule name rule)
    (picks : ∀ context, Keeps (fun _ => True) gives fails (rule.pick (ρ := ρ) context)) :
    Keeps (StemsFrom start) gives fails (resolve name rule) := by
  intro run stems
  obtain ⟨-, meets⟩ := picks run.engine.context ⟨run.engine.generator, run.world, run.notes⟩ trivial
  rcases picked : rule.pick run.engine.context ⟨run.engine.generator, run.world, run.notes⟩
    with ⟨failure | text, sources⟩
  · rw [picked] at meets
    rw [resolve_of_error picked]
    exact ⟨⟨stems.rules, stems.modifiers, stems.maxDepth⟩, meets⟩
  · rw [picked] at meets
    rw [resolve_of_ok picked]
    exact ⟨⟨put_advance stems has, stems.modifiers, stems.maxDepth⟩, meets⟩

theorem record_apply (recording : Bool) (name : String) (value : List Char) (run : Run ρ ω) :
    ∃ context, record recording name value run =
      (.ok (), { run with engine := { run.engine with context } }) := by
  cases recording with
  | false => exact ⟨run.engine.context, rfl⟩
  | true => exact ⟨_, rfl⟩

theorem keeps_record (recording : Bool) (name : String) (value : List Char)
    {fails : Failure → Prop} :
    Keeps (StemsFrom start (ρ := ρ)) (fun _ => True) fails (record recording name value) := by
  intro run stems
  obtain ⟨context, recorded⟩ := record_apply recording name value run
  rw [recorded]
  exact ⟨⟨stems.rules, stems.modifiers, stems.maxDepth⟩, trivial⟩

/-! ### Slots -/

theorem get_apply (run : Run ρ ω) : (get : Expansion ρ ω (Run ρ ω)) run = (.ok run, run) := rfl

section

variable [Draws ρ] {recording : Bool} {inner : List Char → Expansion ρ ω (List Char)}

/-- A slot that names no rule stands for itself. -/
theorem slot_of_absent {inner : Option (List Char → Expansion ρ ω (List Char))}
    (absent : run.engine.rules.get? name = none) :
    slot recording inner name run = (.ok (Segment.slot name).written, run) := by
  rw [slot, bind_apply, get_apply]
  simp only [absent]
  rfl

/-- A slot that names a rule is refused on the last level. -/
theorem slot_of_found_none (found : run.engine.rules.get? name = some rule) :
    slot recording none name run = (.error (.tooDeep run.engine.maxDepth name), run) := by
  rw [slot, bind_apply, get_apply]
  simp only [found]
  rfl

/-- On any other level the rule is resolved, its text expanded, and the result recorded. -/
theorem slot_of_found_some (found : run.engine.rules.get? name = some rule) :
    slot recording (some inner) name run =
      (do
        let text ← resolve name rule
        let value ← inner text.toList
        record recording name value
        return value : Expansion ρ ω (List Char)) run := by
  rw [slot, bind_apply, get_apply]
  simp only [found]

variable {gives : List Char → Prop} {fails : Failure → Prop}

theorem keeps_slot_none
    (absent : start.rules.get? name = none → gives (Segment.slot name).written)
    (refused : start.rules.get? name ≠ none → fails (.tooDeep start.maxDepth name)) :
    Keeps (StemsFrom start (ρ := ρ)) gives fails (slot recording none name) := by
  intro run stems
  cases found : run.engine.rules.get? name with
  | none =>
    rw [slot_of_absent found]
    exact ⟨stems, absent ((absent_iff stems).mp found)⟩
  | some rule =>
    rw [slot_of_found_none found, stems.maxDepth]
    refine ⟨stems, refused fun missing => ?_⟩
    rw [(absent_iff stems).mpr missing] at found
    cases found

theorem keeps_slot_some (resolves : String → Prop)
    (absent : start.rules.get? name = none → gives (Segment.slot name).written)
    (picks : ∀ rule, start.rules.HasRule name rule → ∀ context,
      Keeps (fun _ => True) resolves fails (rule.pick (ρ := ρ) context))
    (goesOn : ∀ text, resolves text → Keeps (StemsFrom start) gives fails (inner text.toList)) :
    Keeps (StemsFrom start) gives fails (slot recording (some inner) name) := by
  intro run stems
  cases found : run.engine.rules.get? name with
  | none =>
    rw [slot_of_absent found]
    exact ⟨stems, absent ((absent_iff stems).mp found)⟩
  | some rule =>
    have has := hasRule_of_found stems found
    rw [slot_of_found_some found]
    refine keeps_bind (keeps_resolve has (picks rule has)) ?_ run stems
    intro text resolved
    refine keeps_bind (goesOn text resolved) fun value given => ?_
    exact keeps_bind (keeps_record recording name value) fun _ _ => keeps_pure given

end

/-! ### Segments -/

theorem keeps_segments (allowed : String → List Char → Prop) {invariant : Run ρ ω → Prop}
    {fails : Failure → Prop} {slot : String → Expansion ρ ω (List Char)} {pieces : List Segment}
    (each : ∀ name, Segment.slot name ∈ pieces → Keeps invariant (allowed name) fails (slot name)) :
    Keeps invariant (Segment.Fills allowed pieces) fails (segments slot pieces) := by
  induction pieces with
  | nil => exact keeps_pure .done
  | cons first rest ih =>
    have behind := ih fun name member => each name (List.mem_cons_of_mem first member)
    cases first with
    | plain characters =>
      exact keeps_bind behind fun more fills => keeps_pure (.plain fills)
    | slot name =>
      refine keeps_bind (each name List.mem_cons_self) fun value choice => ?_
      exact keeps_bind behind fun more fills => keeps_pure (.slot choice fills)

/-! ### Expansions -/

/-- An invariant of expansions: texts that fit a level give what they should, with everything
allowed for their slots, if what a rule resolves to fits the level below. -/
theorem keeps_expand_of [Draws ρ] {recording : Bool} (fits : Nat → List Char → Prop)
    (allowed : Nat → String → List Char → Prop) (gives : Nat → List Char → List Char → Prop)
    {fails : Failure → Prop}
    (whole : ∀ depth text out, fits depth text →
      Segment.Fills (allowed depth) (Segment.ofText text) out → gives depth text out)
    (absent : ∀ depth text name, fits depth text → .slot name ∈ Segment.ofText text →
      start.rules.get? name = none → allowed depth name (Segment.slot name).written)
    (refused : ∀ text name, fits 0 text → .slot name ∈ Segment.ofText text →
      start.rules.get? name ≠ none → fails (.tooDeep start.maxDepth name))
    (picks : ∀ depth text name rule, fits (depth + 1) text → .slot name ∈ Segment.ofText text →
      start.rules.HasRule name rule → ∀ context, Keeps (fun _ => True)
        (fun value => fits depth value.toList ∧
          ∀ out, gives depth value.toList out → allowed (depth + 1) name out)
        fails (rule.pick (ρ := ρ) context))
    {depth : Nat} {text : List Char} (fit : fits depth text) :
    Keeps (StemsFrom start) (gives depth text) fails (expand recording depth text) := by
  induction depth generalizing text with
  | zero =>
    refine (keeps_segments (allowed 0) fun name member => ?_).imp (whole 0 text · fit)
    exact keeps_slot_none (absent 0 text name fit member) (refused text name fit member)
  | succ depth ih =>
    refine (keeps_segments (allowed (depth + 1)) fun name member => ?_).imp
      (whole (depth + 1) text · fit)
    refine keeps_slot_some _ (absent (depth + 1) text name fit member)
      (fun rule has => picks depth text name rule fit member has) ?_
    rintro value ⟨inner, goesOn⟩
    exact (ih inner).imp goesOn

/-! ### Generating -/

/-- The run in which the expansion of a text begins. -/
def prepared (preserve : Bool) (run : Run ρ ω) : Run ρ ω :=
  if preserve then run else { run with engine := run.engine.clearContext }

theorem stemsFrom_prepared (preserve : Bool) (run : Run ρ ω) :
    StemsFrom run.engine (prepared preserve run) := by
  cases preserve with
  | false => exact ⟨rfl, rfl, rfl⟩
  | true => exact ⟨rfl, rfl, rfl⟩

theorem generate_apply [Draws ρ] (text : String) (preserve : Bool) (run : Run ρ ω) :
    generate text preserve run =
      (expand preserve run.engine.maxDepth.toNat text.toList >>= fun expanded =>
        modified (String.ofList expanded)) (prepared preserve run) := by
  cases preserve <;> rfl

/-- Modifiers are applied to the text one after the other and change nothing else. -/
theorem modified_apply (text : String) (run : Run ρ ω) :
    modified text run =
      (run.engine.modifiers.entries.foldlM (fun text entry => entry.2 text) text, run) := by
  rw [modified, bind_apply, get_apply]
  simp only
  cases run.engine.modifiers.entries.foldlM (fun text entry => entry.2 text) text with
  | ok changed => rfl
  | error failure => rfl

theorem modified_of_empty (unmodified : run.engine.modifiers = .empty) (text : String) :
    modified text run = (.ok text, run) := by
  rw [modified_apply, unmodified]
  rfl

theorem meets_generate [Draws ρ] {text : String} {preserve : Bool} {between : List Char → Prop}
    {gives : String → Prop} {fails : Failure → Prop}
    (expands : Keeps (StemsFrom run.engine) between fails
      (expand preserve run.engine.maxDepth.toNat text.toList))
    (goesOn : ∀ expanded, between expanded →
      Keeps (StemsFrom run.engine) gives fails (modified (String.ofList expanded))) :
    Meets gives fails (generate text preserve run).1 := by
  rw [generate_apply]
  exact (keeps_bind expands goesOn (prepared preserve run) (stemsFrom_prepared preserve run)).2

/-- Without modifiers the result is that of the expansion. -/
theorem gives_of_generate [Draws ρ] {text out : String} {preserve : Bool}
    {gives : List Char → Prop} {fails : Failure → Prop}
    (expands : Keeps (StemsFrom run.engine) gives fails
      (expand preserve run.engine.maxDepth.toNat text.toList))
    (unmodified : run.engine.modifiers = .empty)
    (given : (generate text preserve run).1 = .ok out) : gives out.toList := by
  have meets : Meets (fun out => gives out.toList) fails (generate text preserve run).1 := by
    refine meets_generate expands fun expanded holds later stems => ?_
    rw [modified_of_empty (stems.modifiers.trans unmodified)]
    refine ⟨stems, ?_⟩
    simpa [Meets] using holds
  rw [given] at meets
  exact meets

end Expansion

end TextGrammar
