import Mathlib
import TextGrammar.Proofs.Expansion.Unfolding
import TextGrammar.Proofs.Rule.Texts
import TextGrammar.Random.Script

/-!
Depth limits. Main statement: a generation that no limit stops goes on in the same way under a
higher one; a slot that is refused stands inside of exactly as many expansions as the limit allows.
-/

namespace TextGrammar

variable {ρ ω : Type}

/-- The run with another depth limit. -/
def Run.withLimit (run : Run ρ ω) (limit : Int) : Run ρ ω :=
  { run with engine := { run.engine with maxDepth := limit } }

/-- The resolution in a run with another depth limit. -/
def Resolution.withLimit (entry : Resolution ρ ω) (limit : Int) : Resolution ρ ω :=
  { entry with run := entry.run.withLimit limit }

/-- The outcome is not that a limit was met: a value, or another failure. -/
def Unstopped {α : Type} (outcome : Except Failure α) : Prop :=
  ∀ limit name, outcome ≠ .error (.tooDeep limit name)

theorem map_eq_error_iff {ε α β : Type} {change : α → β} {outcome : Except ε α} {error : ε} :
    outcome.map change = .error error ↔ outcome = .error error := by
  cases outcome <;> simp [Except.map]

theorem unstopped_map {α β : Type} {change : α → β} {outcome : Except Failure α} :
    Unstopped (outcome.map change) ↔ Unstopped outcome := by
  simp only [Unstopped, ne_eq, map_eq_error_iff]

theorem unstopped_ok {α : Type} (value : α) : Unstopped (.ok value) := nofun

namespace Expansion

open Effect

/-- The mark in runs with another depth limit. -/
def Mark.withLimit (limit : Int) : Mark ρ ω → Mark ρ ω
  | opened entry => opened (entry.withLimit limit)
  | completed entry value => completed (entry.withLimit limit) value
  | refused name => refused name

theorem opens_withLimit (marks : List (Mark ρ ω)) (limit : Int) :
    (marks.map (Mark.withLimit limit)).filterMap Mark.opens? =
      (marks.filterMap Mark.opens?).map (Resolution.withLimit · limit) := by
  rw [List.filterMap_map, List.map_filterMap]
  apply List.filterMap_congr
  intro mark _
  cases mark <;> rfl

variable [Draws ρ] {recording : Bool} {depth : Nat} {pieces : List Segment} {run later : Run ρ ω}
  {marks : List (Mark ρ ω)} {outcome : Except Failure (List Char)}

/-! ### Higher limits -/

/-- Resolving a rule does not depend on the limit. -/
theorem resolve_withLimit (name : String) (rule : Rule ω) (run : Run ρ ω) (limit : Int) :
    resolve name rule (run.withLimit limit) =
      ((resolve name rule run).1, (resolve name rule run).2.withLimit limit) := by
  rcases picked : rule.pick run.engine.context ⟨run.engine.generator, run.world, run.notes⟩
    with ⟨failure | text, sources⟩
  · rw [resolve_of_error picked]
    exact resolve_of_error picked
  · rw [resolve_of_ok picked]
    exact resolve_of_ok picked

omit [Draws ρ] in
theorem record_withLimit (recording : Bool) (name : String) (value : List Char) (run : Run ρ ω)
    (limit : Int) : (record recording name value (run.withLimit limit)).2 =
      (record recording name value run).2.withLimit limit := by
  cases recording <;> rfl

/-- What no limit stops has the same course with more levels, under any limit. -/
theorem Unfolds.withLimit (unfolds : Unfolds recording depth pieces run marks outcome later)
    (unstopped : Unstopped outcome) {levels : Nat} (more : depth ≤ levels) (limit : Int) :
    Unfolds recording levels pieces (run.withLimit limit) (marks.map (Mark.withLimit limit))
      outcome (later.withLimit limit) := by
  induction unfolds generalizing levels with
  | done => exact .done
  | plain _ ih => exact .plain (ih (unstopped_map.mp unstopped) more)
  | absent unknown _ ih => exact .absent unknown (ih (unstopped_map.mp unstopped) more)
  | refused => exact absurd rfl (unstopped _ _)
  -- a rule that is resolved has a level below it, so there is one below it among more
  | unresolved found fails =>
    obtain ⟨levels, rfl⟩ := Nat.exists_eq_add_of_le' (Nat.le_of_add_left_le more)
    refine .unresolved found ?_
    rw [resolve_withLimit, fails]
  | broken found resolves _ ih =>
    obtain ⟨levels, rfl⟩ := Nat.exists_eq_add_of_le' (Nat.le_of_add_left_le more)
    refine .broken found ?_ (ih unstopped (Nat.le_of_succ_le_succ more))
    rw [resolve_withLimit, resolves]
  | completed found resolves _ _ inner rest =>
    obtain ⟨levels, rfl⟩ := Nat.exists_eq_add_of_le' (Nat.le_of_add_left_le more)
    have inside := inner (unstopped_ok _) (Nat.le_of_succ_le_succ more)
    have behind := rest (unstopped_map.mp unstopped) more
    rw [← record_withLimit] at behind
    rw [List.map_cons, List.map_append, List.map_cons]
    refine .completed found ?_ inside behind
    rw [resolve_withLimit, resolves]

/-- An expansion that no limit stops has the same outcome with more levels, and leaves the same run
behind but for its limit. -/
theorem expand_withLimit {text : List Char}
    (unstopped : Unstopped (expand recording depth text run).1) {levels : Nat}
    (more : depth ≤ levels) (limit : Int) :
    expand recording levels text (run.withLimit limit) =
      ((expand recording depth text run).1,
        (expand recording depth text run).2.withLimit limit) := by
  obtain ⟨marks, unfolds⟩ := exists_marks recording depth text run
  rw [expand_eq recording levels]
  exact (unfolds.withLimit unstopped more limit).segments_eq

omit [Draws ρ] in
/-- Modifiers do not depend on the limit. -/
theorem modified_withLimit (text : String) (run : Run ρ ω) (limit : Int) :
    modified text (run.withLimit limit) =
      ((modified text run).1, (modified text run).2.withLimit limit) := by
  rw [modified_apply, modified_apply]
  rfl

omit [Draws ρ] in
theorem prepared_withLimit (preserve : Bool) (run : Run ρ ω) (limit : Int) :
    prepared preserve (run.withLimit limit) = (prepared preserve run).withLimit limit := by
  cases preserve <;> rfl

/-- A generation under a limit. -/
theorem generate_at (text : String) (preserve : Bool) (run : Run ρ ω) (limit : Int) :
    generate text preserve (run.withLimit limit) =
      (expand preserve limit.toNat text.toList >>= fun expanded =>
        modified (String.ofList expanded)) ((prepared preserve run).withLimit limit) := by
  rw [generate_apply, prepared_withLimit]
  rfl

section

variable {text : String} {preserve : Bool} {limit : Int}
  (unstopped : Unstopped (generate text preserve (run.withLimit limit)).1)

include unstopped

/-- Where no limit stops a generation, none stops the expansion in it. -/
theorem unstopped_expand : Unstopped (expand preserve limit.toNat text.toList
    ((prepared preserve run).withLimit limit)).1 := by
  intro given name failed
  rw [generate_at, bind_apply] at unstopped
  rcases expanded :
      expand preserve limit.toNat text.toList ((prepared preserve run).withLimit limit)
    with ⟨outcome, later⟩
  rw [expanded] at failed unstopped
  subst failed
  exact unstopped given name rfl

variable {higher : Int} (more : limit ≤ higher)

include more

/-- A generation that no limit stops does the same under a higher one. -/
theorem generate_withLimit : generate text preserve (run.withLimit higher) =
    ((generate text preserve (run.withLimit limit)).1,
      (generate text preserve (run.withLimit limit)).2.withLimit higher) := by
  have deeper := expand_withLimit (unstopped_expand unstopped) (Int.toNat_le_toNat more) higher
  rw [generate_at, generate_at, bind_apply, bind_apply]
  generalize (prepared preserve run) = start at deeper ⊢
  have same : (start.withLimit limit).withLimit higher = start.withLimit higher := rfl
  rw [same] at deeper
  rw [deeper]
  rcases expand preserve limit.toNat text.toList (start.withLimit limit)
    with ⟨failure | value, later⟩
  · rfl
  · exact modified_withLimit (String.ofList value) later higher

/-- A generation that no limit stops resolves the same rules in the same runs under a higher one. -/
theorem resolutions_withLimit : resolutions text preserve (run.withLimit higher) =
    (resolutions text preserve (run.withLimit limit)).map (Resolution.withLimit · higher) := by
  obtain ⟨marks, unfolds⟩ :=
    exists_marks preserve limit.toNat text.toList ((prepared preserve run).withLimit limit)
  have deeper := unfolds.withLimit (unstopped_expand unstopped) (Int.toNat_le_toNat more) higher
  rw [resolutions, resolutions, prepared_withLimit, prepared_withLimit]
  exact deeper.opens_log.symm.trans
    ((opens_withLimit marks higher).trans (congrArg _ unfolds.opens_log))

end

/-! ### Refused slots -/

/-- Only the handler or a guard of a rule can give a failure about a limit. -/
theorem resolve_tooDeep {name refused : String} {rule : Rule ω} {limit : Int}
    (failed : (resolve name rule run).1 = .error (.tooDeep limit refused)) :
    rule.Raises run.engine.context run.world (.tooDeep limit refused) := by
  have faults (reason : Fault) : (Failure.fault reason).Shallow ∨
      rule.Raises run.engine.context run.world (.fault reason) :=
    .inl (Failure.shallow_fault reason)
  obtain ⟨same, -⟩ := resolve_eq_pick name rule run
  rw [same] at failed
  -- what rules without handlers raise does not depend on the world
  have ofData (isData : rule.IsData) (anywhere : ∀ world failure,
      rule.Raises run.engine.context world failure →
        rule.Raises run.engine.context run.world failure) :
      rule.Raises run.engine.context run.world (.tooDeep limit refused) := by
    have keeps : Keeps (fun _ => True) rule.Gives
        (fun failure => failure.Shallow ∨ rule.Raises run.engine.context run.world failure)
        (rule.pick (ρ := ρ) run.engine.context) :=
      Rule.keeps_pick_gives isData faults fun world failure raises =>
        .inr (anywhere world failure raises)
    have meets := (keeps ⟨run.engine.generator, run.world, run.notes⟩ trivial).2
    rw [failed] at meets
    exact meets.resolve_left fun shallow => shallow limit refused rfl
  cases rule with
  | function handler parameters =>
    rw [Rule.pick, bind_apply, Pick.call] at failed
    rcases called : handler parameters run.world with ⟨failure | value, world⟩
    · rw [called] at failed
      cases failed
      exact congrArg Prod.fst called
    · rw [called] at failed
      have chooses : Keeps (fun _ => True) (fun _ => True) Failure.Shallow
          (do Pick.uniform (← Pick.ofFault value.elements) : Pick ρ ω String) :=
        keeps_bind (Pick.keeps_ofFault fun reason _ => Failure.shallow_fault reason)
          fun elements _ => (Pick.keeps_uniform_mem Failure.shallow_fault elements).mono
            (fun _ _ => trivial) fun _ shallow => shallow
      have meets := (chooses ⟨run.engine.generator, world, run.notes⟩ trivial).2
      rw [failed] at meets
      exact absurd rfl (meets limit refused)
  | _ => exact ofData trivial fun _ _ raises => raises

/-- How marks end where a limit is met: with a slot that is refused, or with a rule whose handler or
guard gives that failure itself. -/
inductive Stopped (limit : Int) (name : String) (maxDepth : Int) : List (Mark ρ ω) → Prop where
  | refused {front : List (Mark ρ ω)} (same : limit = maxDepth) :
      Stopped limit name maxDepth (front ++ [.refused name])
  | raised {front : List (Mark ρ ω)} {entry : Resolution ρ ω}
      (raises : entry.rule.Raises entry.run.engine.context entry.run.world (.tooDeep limit name)) :
      Stopped limit name maxDepth (front ++ [.opened entry])

omit [Draws ρ] in
theorem Stopped.append {limit maxDepth : Int} {name : String} {marks : List (Mark ρ ω)}
    (stopped : Stopped limit name maxDepth marks) (front : List (Mark ρ ω)) :
    Stopped limit name maxDepth (front ++ marks) := by
  cases stopped with
  | refused same =>
    rw [← List.append_assoc]
    exact .refused same
  | raised raises =>
    rw [← List.append_assoc]
    exact .raised raises

/-- An expansion that a limit stops ends where a slot is refused, or with a rule that gives that
failure itself. -/
theorem Unfolds.stopped (unfolds : Unfolds recording depth pieces run marks outcome later)
    {limit : Int} {name : String} (failed : outcome = .error (.tooDeep limit name)) :
    Stopped limit name run.engine.maxDepth marks := by
  induction unfolds with
  | done => cases failed
  | plain _ ih => exact ih (map_eq_error_iff.mp failed)
  | absent _ _ ih => exact ih (map_eq_error_iff.mp failed)
  | @refused refusedName rule rest run found =>
    cases failed
    exact @Stopped.refused ρ ω _ _ _ [] rfl
  | unresolved found fails =>
    cases failed
    exact @Stopped.raised ρ ω _ _ _ [] _ (resolve_tooDeep (congrArg Prod.fst fails))
  | @broken depth name text rule rest run inside later marks failure found resolves breaks ih =>
    have opens : Leads recording [.opened ⟨name, rule, run⟩] run inside :=
      .next (.opened found) (resolves ▸ .done)
    have stopped := ih failed
    rw [(opens.stemsFrom ⟨rfl, rfl, rfl⟩).maxDepth] at stopped
    exact stopped.append [.opened ⟨name, rule, run⟩]
  | @completed depth name text rule rest run inside between later marks more value outcome found
      resolves expands _ _ ih =>
    have opens : Leads recording
        (.opened ⟨name, rule, run⟩ :: (marks ++ [.completed ⟨name, rule, run⟩ value])) run
        (record recording name value between).2 :=
      .next (.opened found)
        (resolves ▸ Path.append_iff.mpr ⟨_, expands.leads, .next .completed .done⟩)
    have stopped := ih (map_eq_error_iff.mp failed)
    rw [(opens.stemsFrom ⟨rfl, rfl, rfl⟩).maxDepth] at stopped
    have whole := stopped.append (.opened ⟨name, rule, run⟩ ::
      (marks ++ [.completed ⟨name, rule, run⟩ value]))
    simpa using whole

/-- If a limit stops a generation, the marks of the expansion end with a slot of the name in the
failure, refused inside of exactly as many expansions as the limit; unless a handler, a guard or a
modifier gave that failure itself. In any case every rule was resolved inside of fewer
expansions. -/
theorem exists_marks_of_tooDeep {text : String} {preserve : Bool} {run : Run ρ ω} {limit : Int}
    (positive : 1 ≤ limit) {given : Int} {name : String}
    (failed : (generate text preserve (run.withLimit limit)).1 = .error (.tooDeep given name)) :
    ∃ (marks : List (Mark ρ ω)) (outcome : Except Failure (List Char)),
      Unfolds preserve limit.toNat (Segment.ofText text.toList)
        ((prepared preserve run).withLimit limit) marks outcome
        (generate text preserve (run.withLimit limit)).2 ∧
      marks.filterMap Mark.opens? = resolutions text preserve (run.withLimit limit) ∧
      (∀ (front : List (Mark ρ ω)) (entry : Resolution ρ ω) (back : List (Mark ρ ω)),
        marks = front ++ .opened entry :: back →
          ∃ opened, Nests limit.toNat front [] opened ∧ (opened.length : Int) < limit) ∧
      ((given = limit ∧ ∃ (front : List (Mark ρ ω)) (opened : List (Resolution ρ ω)),
          marks = front ++ [.refused name] ∧ Nests limit.toNat front [] opened ∧
            (opened.length : Int) = limit) ∨
        (∃ (front : List (Mark ρ ω)) (entry : Resolution ρ ω),
          marks = front ++ [.opened entry] ∧
            entry.rule.Raises entry.run.engine.context entry.run.world (.tooDeep given name)) ∨
        ∃ expanded : List Char, outcome = .ok expanded ∧
          run.engine.modifiers.entries.foldlM (fun text entry => entry.2 text)
            (String.ofList expanded) = .error (.tooDeep given name)) := by
  have last := generate_snd text preserve (run.withLimit limit)
  rw [prepared_withLimit] at last
  rw [generate_at, bind_apply] at failed
  obtain ⟨marks, unfolds⟩ :=
    exists_marks preserve limit.toNat text.toList ((prepared preserve run).withLimit limit)
  obtain ⟨unfinished, nests, -⟩ := unfolds.nests_from_start
  rw [last]
  have opens := unfolds.opens_log
  rw [← prepared_withLimit] at opens
  refine ⟨marks, _, unfolds, opens, ?_, ?_⟩
  · rintro front entry back rfl
    obtain ⟨opened, before, room⟩ := nests.before_opened
    exact ⟨opened, before, by omega⟩
  · have kept := (unfolds.leads.stemsFrom ⟨rfl, rfl, rfl⟩).modifiers
    have modifiers : (prepared preserve run).engine.modifiers = run.engine.modifiers := by
      cases preserve <;> rfl
    rcases expanded :
        expand preserve limit.toNat text.toList ((prepared preserve run).withLimit limit)
      with ⟨failure | value, later⟩
    · rw [expanded] at failed
      cases failed
      have stopped := unfolds.stopped (congrArg Prod.fst expanded)
      cases stopped with
      | @refused front same =>
        obtain ⟨opened, before, full⟩ := nests.before_refused
        exact .inl ⟨same, front, opened, rfl, before, by omega⟩
      | @raised front entry raises => exact .inr (.inl ⟨front, entry, rfl, raises⟩)
    · rw [expanded] at failed kept
      have same : later.engine.modifiers = run.engine.modifiers := kept.trans modifiers
      simp only [modified_apply, same] at failed
      exact .inr (.inr ⟨value, rfl, failed⟩)

/-- Higher limits change nothing where no limit is met: a generation that none stops has the same
outcome under a higher one, resolves the same rules in the same runs and leaves the same run behind,
but for the limit. If a limit stops it, the marks of the expansion end with a slot of the name in
the failure, refused inside of exactly as many expansions as the limit; unless a handler, a guard or
a modifier gave that failure itself. In any case every rule was resolved inside of fewer
expansions. -/
theorem limit_only_cuts (text : String) (preserve : Bool) (run : Run ρ ω) {limit higher : Int}
    (positive : 1 ≤ limit) (more : limit ≤ higher) :
    (Unstopped (generate text preserve (run.withLimit limit)).1 →
      generate text preserve (run.withLimit higher) =
        ((generate text preserve (run.withLimit limit)).1,
          (generate text preserve (run.withLimit limit)).2.withLimit higher) ∧
      resolutions text preserve (run.withLimit higher) =
        (resolutions text preserve (run.withLimit limit)).map (Resolution.withLimit · higher)) ∧
    ∀ (given : Int) (name : String),
      (generate text preserve (run.withLimit limit)).1 = .error (.tooDeep given name) →
      ∃ (marks : List (Mark ρ ω)) (outcome : Except Failure (List Char)),
        Unfolds preserve limit.toNat (Segment.ofText text.toList)
          ((prepared preserve run).withLimit limit) marks outcome
          (generate text preserve (run.withLimit limit)).2 ∧
        marks.filterMap Mark.opens? = resolutions text preserve (run.withLimit limit) ∧
        (∀ (front : List (Mark ρ ω)) (entry : Resolution ρ ω) (back : List (Mark ρ ω)),
          marks = front ++ .opened entry :: back →
            ∃ opened, Nests limit.toNat front [] opened ∧ (opened.length : Int) < limit) ∧
        ((given = limit ∧ ∃ (front : List (Mark ρ ω)) (opened : List (Resolution ρ ω)),
            marks = front ++ [.refused name] ∧ Nests limit.toNat front [] opened ∧
              (opened.length : Int) = limit) ∨
          (∃ (front : List (Mark ρ ω)) (entry : Resolution ρ ω),
            marks = front ++ [.opened entry] ∧
              entry.rule.Raises entry.run.engine.context entry.run.world (.tooDeep given name)) ∨
          ∃ expanded : List Char, outcome = .ok expanded ∧
            run.engine.modifiers.entries.foldlM (fun text entry => entry.2 text)
              (String.ofList expanded) = .error (.tooDeep given name)) := by
  constructor
  · intro unstopped
    exact ⟨generate_withLimit unstopped more, resolutions_withLimit unstopped more⟩
  · intro given name failed
    exact exists_marks_of_tooDeep positive failed

/-- A greeting whose text refers to a name. -/
def greeting : Run Script Unit :=
  ⟨{ rules := ⟨[("greeting", .static [.str "hello %name%"]), ("name", .static [.str "you"])]⟩,
     modifiers := .empty, context := .empty, maxDepth := 1, seed := none, generator := ⟨[], []⟩ },
   (), []⟩

theorem shallow_greeting : (greeting.withLimit 1).engine.Shallow := by
  constructor
  · simp [greeting, Run.withLimit, Rule.Raises]
  · nofun

/-- Two levels are enough for it and give what five do; on one level the name is refused inside of
the greeting. -/
theorem greeting_needs_two_levels :
    (generate "%greeting%" true (greeting.withLimit 5)).1 = .ok "hello you" ∧
    (generate "%greeting%" true (greeting.withLimit 1)).1 = .error (.tooDeep 1 "name") ∧
    ∃ (front : List (Mark Script Unit)) (opened : List (Resolution Script Unit)),
      Leads true (front ++ [.refused "name"]) (greeting.withLimit 1)
        (generate "%greeting%" true (greeting.withLimit 1)).2 ∧
      Nests 1 front [] opened ∧ opened.length = 1 := by
  have two : (generate "%greeting%" true (greeting.withLimit 2)).1 = .ok "hello you" := by cbv
  have one : (generate "%greeting%" true (greeting.withLimit 1)).1 =
      .error (.tooDeep 1 "name") := by cbv
  obtain ⟨same, -⟩ := limit_only_cuts "%greeting%" true greeting (by decide : (1 : Int) ≤ 2)
    (by decide : (2 : Int) ≤ 5)
  obtain ⟨-, stops⟩ := limit_only_cuts "%greeting%" true greeting (by decide : (1 : Int) ≤ 1)
    (by decide : (1 : Int) ≤ 5)
  refine ⟨(congrArg Prod.fst (same (two ▸ unstopped_ok _)).1).trans two, one, ?_⟩
  obtain ⟨marks, outcome, unfolds, -, -, ends⟩ := stops 1 "name" one
  rcases ends with ⟨-, front, opened, rfl, nests, full⟩ | ⟨front, entry, rfl, raises⟩ |
    ⟨expanded, -, failed⟩
  · exact ⟨front, opened, unfolds.leads, nests, by exact_mod_cast full⟩
  · exact absurd rfl (shallow_greeting.of_raises unfolds.leads.hasRule raises 1 "name")
  · exact absurd rfl (shallow_greeting.shallow_of_foldlM failed 1 "name")

/-- A limit that stops a generation of an engine in which no handler, guard or modifier gives such a
failure itself is the limit of the run: the slot of the name in the failure was refused inside of
exactly as many expansions, and every rule was resolved inside of fewer. -/
theorem refused_of_tooDeep {text : String} {preserve : Bool} {run : Run ρ ω} {limit : Int}
    (positive : 1 ≤ limit) (shallow : run.engine.Shallow) {given : Int} {name : String}
    (failed : (generate text preserve (run.withLimit limit)).1 = .error (.tooDeep given name)) :
    given = limit ∧ ∃ (front : List (Mark ρ ω)) (opened : List (Resolution ρ ω)),
      Leads preserve (front ++ [.refused name]) ((prepared preserve run).withLimit limit)
        (generate text preserve (run.withLimit limit)).2 ∧
      front.filterMap Mark.opens? = resolutions text preserve (run.withLimit limit) ∧
      Nests limit.toNat front [] opened ∧ (opened.length : Int) = limit ∧
      ∀ (before : List (Mark ρ ω)) (entry : Resolution ρ ω) (back : List (Mark ρ ω)),
        front = before ++ .opened entry :: back →
          ∃ opened, Nests limit.toNat before [] opened ∧ (opened.length : Int) < limit := by
  obtain ⟨marks, outcome, unfolds, opens, room, ends⟩ := exists_marks_of_tooDeep positive failed
  rcases ends with ⟨rfl, front, opened, rfl, nests, full⟩ | ⟨front, entry, rfl, raises⟩ |
    ⟨expanded, -, failed⟩
  · refine ⟨rfl, front, opened, unfolds.leads, ?_, nests, full, ?_⟩
    · rw [← opens, List.filterMap_append]
      exact (List.append_nil _).symm
    · rintro before entry back rfl
      exact room before entry (back ++ [.refused name]) (by simp)
  · have shallow : ((prepared preserve run).withLimit limit).engine.Shallow := by
      cases preserve <;> exact ⟨shallow.rules, shallow.modifiers⟩
    exact absurd rfl (shallow.of_raises unfolds.leads.hasRule raises given name)
  · exact absurd rfl (shallow.shallow_of_foldlM failed given name)

end Expansion

end TextGrammar
