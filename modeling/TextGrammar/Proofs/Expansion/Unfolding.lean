import TextGrammar.Proofs.Expansion.Resolutions

/-!
Expansions as derivations. A derivation says which rules are resolved and which of these expansions
are completed, in order, and how it ends. Main statements: an expansion has exactly the derivation
of what it gives; its marks lead from the run before it to the run behind it, and they are nested
like brackets, never deeper than the levels allow.
-/

namespace TextGrammar

/-- Steps with these labels, one after the other, lead from a state to a state. -/
inductive Path {α σ : Type} (step : α → σ → σ → Prop) : List α → σ → σ → Prop where
  | done {state : σ} : Path step [] state state
  | next {label : α} {rest : List α} {state between later : σ} (first : step label state between)
      (behind : Path step rest between later) : Path step (label :: rest) state later

theorem Path.append_iff {α σ : Type} {step : α → σ → σ → Prop} {front back : List α}
    {state later : σ} : Path step (front ++ back) state later ↔
      ∃ between, Path step front state between ∧ Path step back between later := by
  induction front generalizing state with
  | nil =>
    constructor
    · exact fun path => ⟨state, .done, path⟩
    · rintro ⟨between, path, behind⟩
      cases path
      exact behind
  | cons label rest ih =>
    constructor
    · intro path
      cases path with
      | next first behind =>
        obtain ⟨between, behind, last⟩ := ih.mp behind
        exact ⟨between, .next first behind, last⟩
    · rintro ⟨between, path, last⟩
      cases path with
      | next first behind => exact .next first (ih.mpr ⟨between, behind, last⟩)

namespace Expansion

open Effect

variable {ρ ω : Type}

/-- What marks the course of an expansion: a rule is resolved, the expansion of a rule that was
resolved is completed with a value, or a slot is refused. -/
inductive Mark (ρ ω : Type) where
  | opened (entry : Resolution ρ ω)
  | completed (entry : Resolution ρ ω) (value : List Char)
  | refused (name : String)

section

variable [Draws ρ]

/-- In a run, segments are expanded at most so many levels deep, with these marks and this outcome,
and a run is left behind. A slot whose rule fails or whose expansion breaks off ends everything. -/
inductive Unfolds (recording : Bool) : Nat → List Segment → Run ρ ω → List (Mark ρ ω) →
    Except Failure (List Char) → Run ρ ω → Prop where
  | done {depth : Nat} {run : Run ρ ω} : Unfolds recording depth [] run [] (.ok []) run
  | plain {depth : Nat} {characters : List Char} {rest : List Segment} {run later : Run ρ ω}
      {marks : List (Mark ρ ω)} {outcome : Except Failure (List Char)}
      (behind : Unfolds recording depth rest run marks outcome later) :
      Unfolds recording depth (.plain characters :: rest) run marks
        (outcome.map (characters ++ ·)) later
  | absent {depth : Nat} {name : String} {rest : List Segment} {run later : Run ρ ω}
      {marks : List (Mark ρ ω)} {outcome : Except Failure (List Char)}
      (unknown : run.engine.rules.get? name = none)
      (behind : Unfolds recording depth rest run marks outcome later) :
      Unfolds recording depth (.slot name :: rest) run marks
        (outcome.map ((Segment.slot name).written ++ ·)) later
  | refused {name : String} {rule : Rule ω} {rest : List Segment} {run : Run ρ ω}
      (found : run.engine.rules.get? name = some rule) :
      Unfolds recording 0 (.slot name :: rest) run [.refused name]
        (.error (.tooDeep run.engine.maxDepth name)) run
  | unresolved {depth : Nat} {name : String} {rule : Rule ω} {rest : List Segment}
      {run later : Run ρ ω} {failure : Failure} (found : run.engine.rules.get? name = some rule)
      (fails : resolve name rule run = (.error failure, later)) :
      Unfolds recording (depth + 1) (.slot name :: rest) run [.opened ⟨name, rule, run⟩]
        (.error failure) later
  | broken {depth : Nat} {name text : String} {rule : Rule ω} {rest : List Segment}
      {run inside later : Run ρ ω} {marks : List (Mark ρ ω)} {failure : Failure}
      (found : run.engine.rules.get? name = some rule)
      (resolves : resolve name rule run = (.ok text, inside))
      (breaks : Unfolds recording depth (Segment.ofText text.toList) inside marks
        (.error failure) later) :
      Unfolds recording (depth + 1) (.slot name :: rest) run (.opened ⟨name, rule, run⟩ :: marks)
        (.error failure) later
  | completed {depth : Nat} {name text : String} {rule : Rule ω} {rest : List Segment}
      {run inside between later : Run ρ ω} {marks more : List (Mark ρ ω)} {value : List Char}
      {outcome : Except Failure (List Char)} (found : run.engine.rules.get? name = some rule)
      (resolves : resolve name rule run = (.ok text, inside))
      (expands : Unfolds recording depth (Segment.ofText text.toList) inside marks
        (.ok value) between)
      (behind : Unfolds recording (depth + 1) rest (record recording name value between).2 more
        outcome later) :
      Unfolds recording (depth + 1) (.slot name :: rest) run
        (.opened ⟨name, rule, run⟩ :: (marks ++ .completed ⟨name, rule, run⟩ value :: more))
        (outcome.map (value ++ ·)) later

end

/-! ### Derivations and expansions -/

theorem record_eq (recording : Bool) (name : String) (value : List Char) (run : Run ρ ω) :
    record recording name value run = (.ok (), (record recording name value run).2) := by
  obtain ⟨context, recorded⟩ := record_apply recording name value run
  rw [recorded]

section

variable {slot : String → Expansion ρ ω (List Char)} {name : String} {rest : List Segment}
  {run between : Run ρ ω}

theorem segments_slot_of_ok {value : List Char} (given : slot name run = (.ok value, between)) :
    segments slot (.slot name :: rest) run =
      ((segments slot rest between).1.map (value ++ ·), (segments slot rest between).2) := by
  rw [segments, bind_apply, given]
  exact bind_pure_apply (segments slot rest) (value ++ ·) between

theorem segments_slot_of_error {failure : Failure}
    (given : slot name run = (.error failure, between)) :
    segments slot (.slot name :: rest) run = (.error failure, between) := by
  rw [segments, bind_apply, given]

end

variable [Draws ρ] {recording : Bool} {depth : Nat} {pieces : List Segment} {run later : Run ρ ω}
  {marks : List (Mark ρ ω)} {outcome : Except Failure (List Char)}

/-- What slots stand for where so many levels are left. -/
def slotAt (recording : Bool) : Nat → String → Expansion ρ ω (List Char)
  | 0 => slot recording none
  | depth + 1 => slot recording (some fun inner => expand recording depth inner)

theorem expand_eq (recording : Bool) (depth : Nat) (text : List Char) :
    expand recording depth text =
      segments (slotAt (ρ := ρ) (ω := ω) recording depth) (Segment.ofText text) := by
  cases depth <;> rfl

theorem slotAt_of_absent {name : String} (absent : run.engine.rules.get? name = none) :
    slotAt recording depth name run = (.ok (Segment.slot name).written, run) := by
  cases depth <;> (rw [slotAt]; exact slot_of_absent absent)

theorem slotAt_of_refused {name : String} {rule : Rule ω}
    (found : run.engine.rules.get? name = some rule) :
    slotAt recording 0 name run = (.error (.tooDeep run.engine.maxDepth name), run) := by
  rw [slotAt]
  exact slot_of_found_none found

section

variable {name : String} {rule : Rule ω} (found : run.engine.rules.get? name = some rule)

include found

theorem slotAt_of_unresolved {failure : Failure}
    (fails : resolve name rule run = (.error failure, later)) :
    slotAt recording (depth + 1) name run = (.error failure, later) := by
  rw [slotAt, slot_of_found_some found, bind_apply, fails]

variable {text : String} {inside : Run ρ ω}
  (resolves : resolve name rule run = (.ok text, inside))

include resolves

theorem slotAt_of_broken {failure : Failure}
    (breaks : expand recording depth text.toList inside = (.error failure, later)) :
    slotAt recording (depth + 1) name run = (.error failure, later) := by
  rw [slotAt, slot_of_found_some found, bind_apply, resolves]
  simp only [bind_apply, breaks]

theorem slotAt_of_completed {value : List Char}
    (expands : expand recording depth text.toList inside = (.ok value, later)) :
    slotAt recording (depth + 1) name run = (.ok value, (record recording name value later).2) := by
  rw [slotAt, slot_of_found_some found, bind_apply, resolves]
  simp only [bind_apply, expands]
  rw [record_eq]
  rfl

end

/-- A derivation has the outcome of the expansion, and leaves the same run behind. -/
theorem Unfolds.segments_eq (unfolds : Unfolds recording depth pieces run marks outcome later) :
    segments (slotAt recording depth) pieces run = (outcome, later) := by
  induction unfolds with
  | done => rfl
  | plain _ ih =>
    rw [segments, bind_pure_apply, ih]
  | absent unknown _ ih => rw [segments_slot_of_ok (slotAt_of_absent unknown), ih]
  | refused found => exact segments_slot_of_error (slotAt_of_refused found)
  | unresolved found fails => exact segments_slot_of_error (slotAt_of_unresolved found fails)
  | broken found resolves _ ih =>
    rw [← expand_eq] at ih
    exact segments_slot_of_error (slotAt_of_broken found resolves ih)
  | completed found resolves _ _ inner rest =>
    rw [← expand_eq] at inner
    rw [segments_slot_of_ok (slotAt_of_completed found resolves inner), rest]

/-- Everything has a derivation. -/
theorem exists_unfolds (recording : Bool) (depth : Nat) (pieces : List Segment) (run : Run ρ ω) :
    ∃ marks outcome later, Unfolds recording depth pieces run marks outcome later := by
  induction depth generalizing pieces run with
  | zero =>
    induction pieces with
    | nil => exact ⟨[], _, run, .done⟩
    | cons first rest ih =>
      obtain ⟨marks, outcome, later, behind⟩ := ih
      cases first with
      | plain characters => exact ⟨_, _, _, .plain behind⟩
      | slot name =>
        cases found : run.engine.rules.get? name with
        | none => exact ⟨_, _, _, .absent found behind⟩
        | some rule => exact ⟨_, _, _, .refused found⟩
  | succ depth expands =>
    induction pieces generalizing run with
    | nil => exact ⟨[], _, run, .done⟩
    | cons first rest ih =>
      cases first with
      | plain characters =>
        obtain ⟨marks, outcome, later, behind⟩ := ih run
        exact ⟨_, _, _, .plain behind⟩
      | slot name =>
        cases found : run.engine.rules.get? name with
        | none =>
          obtain ⟨marks, outcome, later, behind⟩ := ih run
          exact ⟨_, _, _, .absent found behind⟩
        | some rule =>
          rcases resolves : resolve name rule run with ⟨failure | text, inside⟩
          · exact ⟨_, _, _, .unresolved found resolves⟩
          · obtain ⟨inner, result, between, unfolds⟩ :=
              expands (Segment.ofText text.toList) inside
            cases result with
            | error failure => exact ⟨_, _, _, .broken found resolves unfolds⟩
            | ok value =>
              obtain ⟨more, outcome, later, behind⟩ := ih (record recording name value between).2
              exact ⟨_, _, _, .completed found resolves unfolds behind⟩

/-- An expansion has a derivation, with its outcome and the run that it leaves behind. -/
theorem exists_marks (recording : Bool) (depth : Nat) (text : List Char) (run : Run ρ ω) :
    ∃ marks, Unfolds recording depth (Segment.ofText text) run marks
      (expand recording depth text run).1 (expand recording depth text run).2 := by
  obtain ⟨marks, outcome, later, unfolds⟩ :=
    exists_unfolds recording depth (Segment.ofText text) run
  rw [expand_eq, unfolds.segments_eq]
  exact ⟨marks, unfolds⟩

/-! ### The rules that are opened -/

/-- The resolution that opens an expansion. -/
def Mark.opens? : Mark ρ ω → Option (Resolution ρ ω)
  | opened entry => some entry
  | completed .. | refused _ => none

/-- The resolutions of a slot where so many levels are left. -/
def slotLogAt (recording : Bool) : Nat → String → Run ρ ω → List (Resolution ρ ω)
  | 0 => slotLog none
  | depth + 1 => slotLog (some fun inner => log recording depth inner)

theorem log_eq (recording : Bool) (depth : Nat) (text : List Char) (run : Run ρ ω) :
    log recording depth text run =
      segmentsLog (slotAt recording depth) (slotLogAt recording depth) (Segment.ofText text)
        run := by
  cases depth <;> rfl

/-- What is opened are the rules that are resolved. -/
theorem Unfolds.opens_eq (unfolds : Unfolds recording depth pieces run marks outcome later) :
    marks.filterMap Mark.opens? =
      segmentsLog (slotAt recording depth) (slotLogAt recording depth) pieces run := by
  induction unfolds with
  | done => rfl
  | plain _ ih => exact ih
  | @absent depth name rest run later marks outcome unknown _ ih =>
    have none : slotLogAt recording depth name run = [] := by
      cases depth <;> simp [slotLogAt, slotLog, unknown]
    rw [segmentsLog, none, slotAt_of_absent unknown]
    exact ih
  | @refused name rule rest run found =>
    rw [segmentsLog, slotAt_of_refused found, slotLogAt, slotLog_none]
    rfl
  | unresolved found fails =>
    rw [segmentsLog, slotAt_of_unresolved found fails]
    simp [slotLogAt, slotLog, found, fails, Mark.opens?]
  | broken found resolves breaks ih =>
    have inner := breaks.segments_eq
    rw [← expand_eq] at inner
    rw [segmentsLog, slotAt_of_broken found resolves inner]
    simp [slotLogAt, slotLog, found, resolves, Mark.opens?, ih, log_eq]
  | @completed depth name text rule rest run inside between later marks more value outcome found
      resolves expands _ opensInside opensBehind =>
    have inner := expands.segments_eq
    rw [← expand_eq] at inner
    have first : slotLogAt recording (depth + 1) name run =
        ⟨name, rule, run⟩ :: marks.filterMap Mark.opens? := by
      simp [slotLogAt, slotLog, found, resolves, opensInside, log_eq]
    rw [segmentsLog, slotAt_of_completed found resolves inner, first]
    simp only [← opensBehind]
    simp [List.filterMap_cons, Mark.opens?]

theorem Unfolds.opens_log {text : List Char}
    (unfolds : Unfolds recording depth (Segment.ofText text) run marks outcome later) :
    marks.filterMap Mark.opens? = log recording depth text run := by
  rw [unfolds.opens_eq, log_eq]

/-! ### From run to run -/

/-- What happens at a mark: a rule that is opened is resolved, and what is completed is recorded if
anything is. -/
inductive Mark.Moves (recording : Bool) : Mark ρ ω → Run ρ ω → Run ρ ω → Prop where
  | opened {name : String} {rule : Rule ω} {run : Run ρ ω}
      (found : run.engine.rules.get? name = some rule) :
      Moves recording (.opened ⟨name, rule, run⟩) run (resolve name rule run).2
  | completed {entry : Resolution ρ ω} {value : List Char} {run : Run ρ ω} :
      Moves recording (.completed entry value) run (record recording entry.name value run).2
  | refused {name : String} {run : Run ρ ω} : Moves recording (.refused name) run run

/-- The marks lead from a run to a run. -/
abbrev Leads (recording : Bool) : List (Mark ρ ω) → Run ρ ω → Run ρ ω → Prop :=
  Path (Mark.Moves recording)

theorem Unfolds.leads (unfolds : Unfolds recording depth pieces run marks outcome later) :
    Leads recording marks run later := by
  induction unfolds with
  | done => exact .done
  | plain _ ih => exact ih
  | absent _ _ ih => exact ih
  | refused => exact .next .refused .done
  | unresolved found fails => exact .next (.opened found) (fails ▸ .done)
  | broken found resolves _ ih => exact .next (.opened found) (resolves ▸ ih)
  | completed found resolves _ _ inner rest =>
    refine .next (.opened found) (resolves ▸ ?_)
    exact Path.append_iff.mpr ⟨_, inner, .next .completed rest⟩

/-- The rules stay what they were but for the places of sequential ones, and so do the modifiers and
the limit. -/
theorem Leads.stemsFrom {start : Engine ρ ω} (leads : Leads recording marks run later)
    (stems : Run.StemsFrom start run) : Run.StemsFrom start later := by
  induction leads with
  | done => exact stems
  | next first _ ih =>
    apply ih
    cases first with
    | opened found => exact stemsFrom_resolve stems found
    | @completed entry value =>
      have kept : Keeps (Run.StemsFrom start) (fun _ => True) (fun _ : Failure => True)
          (record recording entry.name value) := keeps_record recording entry.name value
      exact (kept _ stems).1
    | refused => exact stems

section

variable {front back : List (Mark ρ ω)} {entry : Resolution ρ ω}
  (leads : Leads recording (front ++ .opened entry :: back) run later)

include leads

/-- The marks before one that opens an expansion lead to the run in which its rule is resolved. -/
theorem Leads.before_opened : Leads recording front run entry.run ∧
    entry.run.engine.rules.get? entry.name = some entry.rule := by
  obtain ⟨between, before, behind⟩ := Path.append_iff.mp leads
  cases behind with
  | next first _ =>
    cases first with
    | opened found => exact ⟨before, found⟩

/-- What is opened is a rule of the start. -/
theorem Leads.hasRule : run.engine.rules.HasRule entry.name entry.rule := by
  obtain ⟨before, found⟩ := Leads.before_opened leads
  exact hasRule_of_found (Leads.stemsFrom before ⟨rfl, rfl, rfl⟩) found

end

/-! ### Nesting -/

/-- Marks as brackets: which expansions are open before a mark and behind it, the innermost first.
What is completed is the innermost one. A rule is opened inside of fewer expansions than the limit,
and a slot is refused inside of exactly as many. -/
inductive Mark.Nests (limit : Nat) :
    Mark ρ ω → List (Resolution ρ ω) → List (Resolution ρ ω) → Prop where
  | opened {entry : Resolution ρ ω} {opened : List (Resolution ρ ω)}
      (room : opened.length < limit) : Nests limit (.opened entry) opened (entry :: opened)
  | completed {entry : Resolution ρ ω} {value : List Char} {opened : List (Resolution ρ ω)} :
      Nests limit (.completed entry value) (entry :: opened) opened
  | refused {name : String} {opened : List (Resolution ρ ω)} (full : opened.length = limit) :
      Nests limit (.refused name) opened opened

/-- The marks lead from the expansions that are open to those that are open behind them. -/
abbrev Nests (limit : Nat) :
    List (Mark ρ ω) → List (Resolution ρ ω) → List (Resolution ρ ω) → Prop :=
  Path (Mark.Nests limit)

section

omit [Draws ρ]

variable {limit : Nat} {front back : List (Mark ρ ω)} {start left : List (Resolution ρ ω)}

/-- A rule is opened inside of fewer expansions than the limit. -/
theorem Nests.before_opened {entry : Resolution ρ ω}
    (nests : Nests limit (front ++ .opened entry :: back) start left) :
    ∃ opened, Nests limit front start opened ∧ opened.length < limit := by
  obtain ⟨opened, before, behind⟩ := Path.append_iff.mp nests
  cases behind with
  | next first _ =>
    cases first with
    | opened room => exact ⟨opened, before, room⟩

/-- A slot is refused inside of as many expansions as the limit. -/
theorem Nests.before_refused {name : String}
    (nests : Nests limit (front ++ .refused name :: back) start left) :
    ∃ opened, Nests limit front start opened ∧ opened.length = limit := by
  obtain ⟨opened, before, behind⟩ := Path.append_iff.mp nests
  cases behind with
  | next first _ =>
    cases first with
    | refused full => exact ⟨opened, before, full⟩

end

theorem isOk_map {ε α β : Type} (change : α → β) (outcome : Except ε α) :
    (outcome.map change).isOk = outcome.isOk := by
  cases outcome <;> rfl

/-- The marks of a derivation are nested. If it ends well, nothing is left open that was not open
before. -/
theorem Unfolds.nests (unfolds : Unfolds recording depth pieces run marks outcome later)
    {opened : List (Resolution ρ ω)} {limit : Nat} (levels : opened.length + depth = limit) :
    ∃ unfinished, Nests limit marks opened (unfinished ++ opened) ∧
      (outcome.isOk = true → unfinished = []) := by
  induction unfolds generalizing opened with
  | done => exact ⟨[], .done, fun _ => rfl⟩
  | plain _ ih =>
    simp only [isOk_map]
    exact ih levels
  | absent _ _ ih =>
    simp only [isOk_map]
    exact ih levels
  | refused => exact ⟨[], .next (.refused levels) .done, fun _ => rfl⟩
  | @unresolved depth name rule rest run later failure found fails =>
    refine ⟨[⟨name, rule, run⟩], .next (.opened (by omega)) .done, ?_⟩
    intro ends
    cases ends
  | @broken depth name text rule rest run inside later marks failure found resolves _ ih =>
    have deeper : (⟨name, rule, run⟩ :: opened : List (Resolution ρ ω)).length + depth = limit := by
      simp only [List.length_cons]
      omega
    obtain ⟨unfinished, nests, -⟩ := ih deeper
    refine ⟨unfinished ++ [⟨name, rule, run⟩], .next (.opened (by omega)) ?_, ?_⟩
    · simpa using nests
    · intro ends
      cases ends
  | @completed depth name text rule rest run inside between later marks more value outcome found
      resolves _ _ inner rest =>
    have deeper : (⟨name, rule, run⟩ :: opened : List (Resolution ρ ω)).length + depth = limit := by
      simp only [List.length_cons]
      omega
    -- what is inside of the slot ended well, so the slot is the innermost one again
    obtain ⟨unfinished, nests, finished⟩ := inner deeper
    obtain rfl := finished rfl
    obtain ⟨left, goesOn, closed⟩ := rest levels
    rw [← isOk_map (value ++ ·)] at closed
    refine ⟨left, .next (.opened (by omega)) ?_, closed⟩
    exact Path.append_iff.mpr ⟨_, nests, .next .completed goesOn⟩

/-- From the beginning, with nothing open. -/
theorem Unfolds.nests_from_start
    (unfolds : Unfolds recording depth pieces run marks outcome later) :
    ∃ unfinished, Nests depth marks [] unfinished ∧ (outcome.isOk = true → unfinished = []) := by
  have levels : ([] : List (Resolution ρ ω)).length + depth = depth := Nat.zero_add depth
  obtain ⟨unfinished, nests, finished⟩ := unfolds.nests levels
  rw [List.append_nil] at nests
  exact ⟨unfinished, nests, finished⟩

/-! ### Generating -/

/-- Behind the expansion the run stays as it is. -/
theorem generate_snd (text : String) (preserve : Bool) (run : Run ρ ω) :
    (generate text preserve run).2 =
      (expand preserve run.engine.maxDepth.toNat text.toList (prepared preserve run)).2 := by
  rw [generate_apply]
  exact bind_leaves id (fun value later => by rw [modified_apply]) _

end Expansion

end TextGrammar
