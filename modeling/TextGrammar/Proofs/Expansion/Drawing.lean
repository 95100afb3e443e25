import Mathlib
import TextGrammar.Proofs.Expansion.Language
import TextGrammar.Random.Script

/-!
Draws for a derivation. Every text that derives is the result of an expansion for some draws, so
that a grammar of static and template rules generates exactly its language.
-/

namespace TextGrammar

variable {ω : Type}

/-- The scripted draws that are still to come. -/
def Sources.ahead (sources : Sources Script ω) : List Number := sources.generator.draws

def Run.ahead (run : Run Script ω) : List Number := run.engine.generator.draws

/-- The run with other draws to come. -/
def Run.withDraws (run : Run Script ω) (draws : List Number) : Run Script ω :=
  { run with engine := { run.engine with generator := ⟨draws, []⟩ } }

namespace Expansion

open Effect Run

/-! ### Steps -/

variable {start : Engine Script ω} {recording : Bool} {name : String} {rule : Rule ω}

/-- Every place is drawn for some draw. -/
theorem reaches_below {bound : Nat} (positive : 0 < bound) (place : Fin bound) :
    Reaches (fun _ => True) Sources.ahead (Pick.below bound positive : Pick Script ω (Fin bound))
      place := by
  refine ⟨[.int place], fun sources later _ same => ?_⟩
  have drawn : Draws.below bound positive sources.generator =
      (place, ⟨later, .below bound :: sources.generator.calls⟩) :=
    Script.below_of_lt positive place same
  refine ⟨{ sources with generator := ⟨later, .below bound :: sources.generator.calls⟩ }, ?_,
    trivial, rfl⟩
  simp only [Pick.below, drawn]

theorem reaches_uniform {values : List Value} {text : String}
    (offered : Offers values text.toList) :
    Reaches (fun _ => True) Sources.ahead (Pick.uniform values : Pick Script ω String) text := by
  rcases offered with ⟨rfl, empty⟩ | ⟨value, member, same⟩
  · have nothing : text = "" := String.toList_eq_nil_iff.mp empty
    rw [nothing]
    exact reaches_pure ""
  · obtain ⟨place, chosen⟩ := List.mem_iff_get.mp member
    have positive : 0 < values.length := List.length_pos_of_mem member
    have shown : (values.get place).text = .ok text := by rw [chosen, same, String.ofList_toList]
    rw [Pick.uniform, dif_pos positive]
    refine reaches_bind (reaches_below positive place) ?_
    rw [shown]
    exact reaches_pure text

theorem reaches_template {bindings : Table (List Value)} {pieces : List Segment}
    {filled : List Char} (fills : Segment.Fills (Binds bindings) pieces filled) :
    Reaches (fun _ => True) Sources.ahead
      (Pick.template bindings pieces : Pick Script ω (List Char)) filled := by
  induction fills with
  | done => exact reaches_pure []
  | plain behind ih => exact reaches_bind ih (reaches_pure _)
  | @slot name value more rest binds behind ih =>
    rw [Pick.template]
    unfold Binds at binds
    cases found : bindings.get? name with
    | none =>
      rw [found] at binds
      rw [show value = (Segment.slot name).written from binds]
      exact reaches_bind ih (reaches_pure _)
    | some values =>
      rw [found] at binds
      have offered : Offers values (String.ofList value).toList := by simpa using binds
      have whole : value = (String.ofList value).toList := by simp
      rw [whole]
      exact reaches_bind (reaches_uniform offered) (reaches_bind ih (reaches_pure _))

/-- Static rules and templates do not look at the context. -/
theorem pick_context [Draws ρ] (textual : rule.Textual) (context other : Table String) :
    rule.pick (ρ := ρ) context = rule.pick other := by
  cases rule with
  | static | template => rfl
  | _ => cases textual

theorem reaches_pick {text : String} (candidate : rule.Candidate text.toList)
    (context : Table String) :
    Reaches (fun _ => True) Sources.ahead (rule.pick (ρ := Script) context) text := by
  generalize same : text.toList = characters at candidate
  cases candidate with
  | static offered =>
    rw [← same] at offered
    exact reaches_uniform offered
  | template fills =>
    rw [← same] at fills
    have result : text = String.ofList text.toList := by simp
    rw [result]
    exact reaches_bind (reaches_template (Segment.filled_iff_fills.mp fills)) (reaches_pure _)

theorem reaches_resolve {text : String} (has : start.rules.HasRule name rule)
    (candidate : rule.Candidate text.toList) :
    Reaches (StemsFrom start) Run.ahead (resolve name rule) text := by
  -- the draws are chosen before the context is known, which does not matter to these rules
  obtain ⟨draws, picks⟩ := reaches_pick candidate start.context
  refine ⟨draws, fun run later stems same => ?_⟩
  obtain ⟨sources, picked, -, left⟩ :=
    picks ⟨run.engine.generator, run.world, run.notes⟩ later trivial same
  rw [pick_context candidate.textual _ run.engine.context] at picked
  refine ⟨_, resolve_of_ok picked, ?_, left⟩
  exact ⟨put_advance stems has, stems.modifiers, stems.maxDepth⟩

theorem reaches_record (name : String) (value : List Char) :
    Reaches (StemsFrom start) Run.ahead (record recording name value) () := by
  refine ⟨[], fun run later stems same => ?_⟩
  obtain ⟨context, recorded⟩ := record_apply recording name value run
  exact ⟨_, recorded, ⟨stems.rules, stems.modifiers, stems.maxDepth⟩, same⟩

theorem reaches_segments {invariant : Run Script ω → Prop} {allowed : String → List Char → Prop}
    {slot : String → Expansion Script ω (List Char)} {pieces : List Segment} {filled : List Char}
    (each : ∀ name value, allowed name value → Reaches invariant Run.ahead (slot name) value)
    (fills : Segment.Fills allowed pieces filled) :
    Reaches invariant Run.ahead (segments slot pieces) filled := by
  induction fills with
  | done => exact reaches_pure []
  | plain behind ih => exact reaches_bind ih (reaches_pure _)
  | slot choice behind ih =>
    exact reaches_bind (each _ _ choice) (reaches_bind ih (reaches_pure _))

theorem reaches_slot_absent {inner : Option (List Char → Expansion Script ω (List Char))}
    (absent : start.rules.get? name = none) :
    Reaches (StemsFrom start) Run.ahead (slot recording inner name)
      (Segment.slot name).written := by
  refine ⟨[], fun run later stems same => ⟨run, ?_, stems, same⟩⟩
  exact slot_of_absent ((absent_iff stems).mpr absent)

/-- A slot that names a static rule or a template resolves the rule as it was at the start. -/
theorem slot_of_textual {inner : List Char → Expansion Script ω (List Char)}
    (textual : ∀ entry ∈ start.rules.entries, entry.2.Textual)
    (found : start.rules.get? name = some rule) {run : Run Script ω} (stems : StemsFrom start run) :
    slot recording (some inner) name run =
      (do
        let text ← resolve name rule
        let value ← inner text.toList
        record recording name value
        return value : Expansion Script ω (List Char)) run := by
  cases present : run.engine.rules.get? name with
  | none =>
    rw [(absent_iff stems).mp present] at found
    cases found
  | some kept =>
    obtain ⟨first, -⟩ := Table.get?_of_hasRule textual (hasRule_of_found stems present)
    rw [found] at first
    cases first
    exact slot_of_found_some present

theorem reaches_slot_found {inner : List Char → Expansion Script ω (List Char)}
    {candidate value : List Char} (textual : ∀ entry ∈ start.rules.entries, entry.2.Textual)
    (found : start.rules.get? name = some rule) (chosen : rule.Candidate candidate)
    (goesOn : Reaches (StemsFrom start) Run.ahead (inner candidate) value) :
    Reaches (StemsFrom start) Run.ahead (slot recording (some inner) name) value := by
  have spelled : candidate = (String.ofList candidate).toList := by simp
  have has : start.rules.HasRule name rule := by simp [Table.HasRule, found]
  rw [spelled] at chosen goesOn
  have steps : Reaches (StemsFrom start) Run.ahead
      (do
        let text ← resolve name rule
        let value ← inner text.toList
        record recording name value
        return value : Expansion Script ω (List Char)) value :=
    reaches_bind (reaches_resolve has chosen)
      (reaches_bind goesOn (reaches_bind (reaches_record name value) (reaches_pure value)))
  obtain ⟨draws, reaches⟩ := steps
  refine ⟨draws, fun run later stems same => ?_⟩
  rw [slot_of_textual textual found stems]
  exact reaches run later stems same

/-- A text that derives is the result of an expansion for some draws. -/
theorem reaches_expand (textual : ∀ entry ∈ start.rules.entries, entry.2.Textual) {depth : Nat}
    {text filled : List Char} (derives : Derives start.rules depth text filled) :
    Reaches (StemsFrom start) Run.ahead (expand recording depth text) filled := by
  induction depth generalizing text filled with
  | zero =>
    refine reaches_segments (fun name value stands => ?_) (derives_iff_fills.mp derives)
    cases found : start.rules.get? name with
    | none =>
      rw [(standsAt_iff_of_absent found).mp stands]
      exact reaches_slot_absent found
    | some rule =>
      simp only [StandsAt, Stands, found] at stands
      obtain ⟨_, _, impossible⟩ := stands
      exact impossible.elim
  | succ depth ih =>
    refine reaches_segments (fun name value stands => ?_) (derives_iff_fills.mp derives)
    cases found : start.rules.get? name with
    | none =>
      rw [(standsAt_iff_of_absent found).mp stands]
      exact reaches_slot_absent found
    | some rule =>
      simp only [StandsAt, Stands, found] at stands
      obtain ⟨candidate, chosen, becomes⟩ := stands
      exact reaches_slot_found textual found chosen (ih becomes)

/-! ### The language -/

/-- A grammar of static rules and templates without modifiers generates a text from another one, for
some draws, exactly if it derives within the depth limit. -/
theorem generate_iff_derives (run : Run Script ω)
    (textual : ∀ entry ∈ run.engine.rules.entries, entry.2.Textual)
    (unmodified : run.engine.modifiers = .empty) (preserve : Bool) (text out : String) :
    (∃ draws, (generate text preserve (run.withDraws draws)).1 = .ok out) ↔
      Derives run.engine.rules run.engine.maxDepth.toNat text.toList out.toList := by
  constructor
  · rintro ⟨draws, given⟩
    have expands : Keeps (StemsFrom (run.withDraws draws).engine)
        (Derives run.engine.rules run.engine.maxDepth.toNat text.toList) (fun _ => True)
        (expand preserve run.engine.maxDepth.toNat text.toList) :=
      keeps_expand (run.withDraws draws).engine textual _ _
    exact gives_of_generate expands unmodified given
  · intro derives
    have reaches : Reaches (StemsFrom run.engine) Run.ahead
        (expand preserve run.engine.maxDepth.toNat text.toList) out.toList :=
      reaches_expand textual derives
    obtain ⟨draws, reaches⟩ := reaches
    have stems : StemsFrom run.engine (prepared preserve (run.withDraws draws)) := by
      cases preserve <;> exact ⟨rfl, rfl, rfl⟩
    have ahead : (prepared preserve (run.withDraws draws)).ahead = draws ++ [] := by
      cases preserve <;> simp [prepared, Run.ahead, Run.withDraws, Engine.clearContext]
    obtain ⟨later, expanded, kept, -⟩ := reaches _ _ stems ahead
    refine ⟨draws, ?_⟩
    have depth : (run.withDraws draws).engine.maxDepth = run.engine.maxDepth := rfl
    rw [generate_apply, depth, bind_apply, expanded]
    show (modified (String.ofList out.toList) later).1 = _
    rw [modified_of_empty (kept.modifiers.trans unmodified), String.ofList_toList]

/-- A grammar with a template that spells a slot once its own slot is filled. -/
def spelling : Run Script Unit :=
  ⟨{ rules := ⟨[("animal", .static [.str "cat"]),
      ("line", .template "%%first%nimal%" ⟨[("first", [.str "a", .str "mi"])]⟩)]⟩,
     modifiers := .empty, context := .empty, maxDepth := 2, seed := none,
     generator := ⟨[], []⟩ }, (), []⟩

theorem spelling_derives_cat :
    Derives spelling.engine.rules 2 "%line%".toList "cat".toList := by
  have textual : ∀ entry ∈ spelling.engine.rules.entries, entry.2.Textual := by
    simp [spelling, Rule.Textual]
  have given : (generate "%line%" false (spelling.withDraws [.int 0, .int 0])).1 = .ok "cat" := by
    cbv
  exact (generate_iff_derives spelling textual rfl false "%line%" "cat").mp ⟨_, given⟩

end Expansion

end TextGrammar
