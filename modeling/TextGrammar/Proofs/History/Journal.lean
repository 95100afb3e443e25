import TextGrammar.Proofs.Expansion.Resolutions

/-!
What happens to the rules of an engine, as a list of events. Main statement: the resolutions of an
expansion, in their order, lead from the rules before it to the rules behind it, whether it fails
or not.
-/

namespace TextGrammar

/-- What can happen to rules. -/
inductive Event (ω : Type) where
  | registered (name : String) (registration : Registration ω)
  | removed (name : String)
  | cleared
  | restarted
  | resolved (name text : String)

variable {ρ ω : Type}

/-- Some draws, in some context, make the rule give the text. -/
def Rule.MayGive (ρ : Type) [Draws ρ] (rule : Rule ω) (text : String) : Prop :=
  ∃ context before behind, (rule.pick context : Pick ρ ω String) before = (.ok text, behind)

/-- The rules behind an event. A rule gives the text that it is resolved to and moves on. -/
inductive Event.Changes (ρ : Type) [Draws ρ] :
    Event ω → Table (Rule ω) → Table (Rule ω) → Prop where
  | registered {rules : Table (Rule ω)} (name : String) (registration : Registration ω) :
      Changes ρ (.registered name registration) rules (rules.put name registration.rule)
  | removed {rules : Table (Rule ω)} (name : String) :
      Changes ρ (.removed name) rules (rules.erase name)
  | cleared {rules : Table (Rule ω)} : Changes ρ .cleared rules .empty
  | restarted {rules : Table (Rule ω)} : Changes ρ .restarted rules (rules.mapValues Rule.reset)
  | resolved {rules : Table (Rule ω)} {name text : String} {rule : Rule ω}
      (found : rules.get? name = some rule) (gives : rule.MayGive ρ text) :
      Changes ρ (.resolved name text) rules (rules.put name rule.advance)

/-- The events, one after the other, lead from rules to rules. -/
inductive History (ρ : Type) [Draws ρ] :
    List (Event ω) → Table (Rule ω) → Table (Rule ω) → Prop where
  | done {rules : Table (Rule ω)} : History ρ [] rules rules
  | next {event : Event ω} {rest : List (Event ω)} {rules between later : Table (Rule ω)}
      (first : event.Changes ρ rules between) (behind : History ρ rest between later) :
      History ρ (event :: rest) rules later

section

variable [Draws ρ] {rules later : Table (Rule ω)} {events more : List (Event ω)}

theorem History.single {event : Event ω} (change : event.Changes ρ rules later) :
    History ρ [event] rules later :=
  .next change .done

theorem History.append_iff :
    History ρ (events ++ more) rules later ↔
      ∃ between, History ρ events rules between ∧ History ρ more between later := by
  induction events generalizing rules with
  | nil =>
    constructor
    · exact fun history => ⟨rules, .done, history⟩
    · rintro ⟨between, history, behind⟩
      cases history
      exact behind
  | cons event rest ih =>
    constructor
    · intro history
      cases history with
      | next first behind =>
        obtain ⟨between, behind, last⟩ := ih.mp behind
        exact ⟨between, .next first behind, last⟩
    · rintro ⟨between, history, last⟩
      cases history with
      | next first behind => exact .next first (ih.mpr ⟨between, behind, last⟩)

end

/-- What a resolution does to the rules, unless it fails. -/
def Resolution.event? [Draws ρ] (entry : Resolution ρ ω) : Option (Event ω) :=
  match Expansion.resolve entry.name entry.rule entry.run with
  | (.ok text, _) => some (.resolved entry.name text)
  | (.error _, _) => none

namespace Expansion

open Effect

variable [Draws ρ] {run : Run ρ ω}

/-! ### The journal of an expansion -/

/-- The resolutions of a slot: that of its rule, if it names one that is resolved, and behind it
those inside of the text. On the last level, where there is no `inner`, there are none. -/
def slotJournal (inner : Option (List Char → Run ρ ω → List (Event ω))) (name : String)
    (run : Run ρ ω) : List (Event ω) :=
  match run.engine.rules.get? name, inner with
  | some rule, some inner =>
    match resolve name rule run with
    | (.ok text, later) => .resolved name text :: inner text.toList later
    | (.error _, _) => []
  | _, _ => []

/-- The resolutions of the slots of segments, up to the first slot that fails. -/
def segmentsJournal (slot : String → Expansion ρ ω (List Char))
    (journal : String → Run ρ ω → List (Event ω)) : List Segment → Run ρ ω → List (Event ω)
  | [], _ => []
  | .plain _ :: rest, run => segmentsJournal slot journal rest run
  | .slot name :: rest, run =>
    journal name run ++ match slot name run with
      | (.ok _, later) => segmentsJournal slot journal rest later
      | (.error _, _) => []

/-- The resolutions of an expansion that begins in a run, in their order. -/
def journal (recording : Bool) : Nat → List Char → Run ρ ω → List (Event ω)
  | 0, text => segmentsJournal (slot recording none) (slotJournal none) (Segment.ofText text)
  | depth + 1, text =>
    segmentsJournal (slot recording (some fun inner => expand recording depth inner))
      (slotJournal (some fun inner => journal recording depth inner)) (Segment.ofText text)

/-- The resolutions of a generation. -/
def generateJournal (text : String) (preserve : Bool) (run : Run ρ ω) : List (Event ω) :=
  journal preserve run.engine.maxDepth.toNat text.toList (prepared preserve run)

/-! ### The journal and the log -/

theorem slotJournal_eq (inner : Option (List Char → Run ρ ω → List (Resolution ρ ω)))
    (name : String) (run : Run ρ ω) :
    slotJournal (inner.map fun log text run => (log text run).filterMap Resolution.event?)
      name run = (slotLog inner name run).filterMap Resolution.event? := by
  unfold slotJournal slotLog
  cases run.engine.rules.get? name with
  | none => rfl
  | some rule =>
    cases inner with
    | none => rfl
    | some inner =>
      rcases resolved : resolve name rule run with ⟨failure | text, later⟩ <;>
        simp [Resolution.event?, resolved]

theorem segmentsJournal_eq (slot : String → Expansion ρ ω (List Char))
    (log : String → Run ρ ω → List (Resolution ρ ω)) (pieces : List Segment) (run : Run ρ ω) :
    segmentsJournal slot (fun name run => (log name run).filterMap Resolution.event?) pieces run =
      (segmentsLog slot log pieces run).filterMap Resolution.event? := by
  induction pieces generalizing run with
  | nil => rfl
  | cons first rest ih =>
    cases first with
    | plain characters => exact ih run
    | slot name =>
      rw [segmentsJournal, segmentsLog, List.filterMap_append]
      rcases slot name run with ⟨failure | value, later⟩
      · rfl
      · exact congrArg (_ ++ ·) (ih later)

/-- The journal of an expansion says what the resolutions of its log do. -/
theorem journal_eq (recording : Bool) (depth : Nat) (text : List Char) (run : Run ρ ω) :
    journal recording depth text run =
      (log recording depth text run).filterMap Resolution.event? := by
  induction depth generalizing text run with
  | zero =>
    rw [journal, log, ← segmentsJournal_eq]
    exact congrArg (segmentsJournal _ · _ run)
      (funext fun name => funext (slotJournal_eq none name))
  | succ depth ih =>
    have inside : (fun inner => journal recording depth inner) =
        fun inner (run : Run ρ ω) =>
          (log recording depth inner run).filterMap Resolution.event? :=
      funext fun inner => funext (ih inner)
    rw [journal, log, ← segmentsJournal_eq, inside]
    exact congrArg (segmentsJournal _ · _ run)
      (funext fun name => funext (slotJournal_eq (some _) name))

/-- Resolutions that lead from a run to a run change the rules as their events say. -/
theorem Passes.history {recording : Bool} {log : List (Resolution ρ ω)} {run later : Run ρ ω}
    (passes : Passes recording log run later) :
    History ρ (log.filterMap Resolution.event?) run.engine.rules later.engine.rules := by
  induction passes with
  | done => exact .done
  | @resolved name rule run later log found behind ih =>
    rcases picked : rule.pick run.engine.context ⟨run.engine.generator, run.world, run.notes⟩
      with ⟨failure | text, sources⟩
    · rw [resolve_of_error picked] at ih
      rwa [List.filterMap_cons_none (by simp only [Resolution.event?, resolve_of_error picked])]
    · rw [resolve_of_ok picked] at ih
      rw [List.filterMap_cons_some (by simp only [Resolution.event?, resolve_of_ok picked]; rfl)]
      exact .next (.resolved found ⟨_, _, _, picked⟩) ih
  | recorded _ _ ih => exact ih

/-- The journal of a generation leads from the rules before it to the rules behind it. -/
theorem history_generate (text : String) (preserve : Bool) (run : Run ρ ω) :
    History ρ (generateJournal text preserve run) run.engine.rules
      (generate text preserve run).2.engine.rules := by
  have history := (passes_resolutions text preserve run).history
  rw [resolutions, ← journal_eq] at history
  have same : (prepared preserve run).engine.rules = run.engine.rules := by cases preserve <;> rfl
  rwa [same] at history

/-! ### The last level -/

theorem slotJournal_none (name : String) (run : Run ρ ω) :
    slotJournal none name run = [] := by
  unfold slotJournal
  cases run.engine.rules.get? name <;> rfl

/-- On the last level a slot changes nothing, whether it is refused or not. -/
theorem slot_none (recording : Bool) (name : String) (run : Run ρ ω) :
    (slot recording none name run).2 = run := by
  cases found : run.engine.rules.get? name with
  | none => rw [slot_of_absent found]
  | some rule => rw [slot_of_found_none found]

/-- On the last level nothing is resolved and nothing changes. -/
theorem journal_zero (recording : Bool) (text : List Char) (run : Run ρ ω) :
    journal recording 0 text run = [] ∧ (expand recording 0 text run).2 = run := by
  rw [journal, expand]
  induction Segment.ofText text with
  | nil => exact ⟨rfl, rfl⟩
  | cons first rest ih =>
    obtain ⟨empty, unchanged⟩ := ih
    cases first with
    | plain characters =>
      refine ⟨empty, ?_⟩
      exact (bind_leaves id (fun _ _ => rfl) run).trans unchanged
    | slot name =>
      have kept := slot_none recording name run
      rw [segmentsJournal, segments, bind_apply, slotJournal_none]
      rcases given : slot recording none name run with ⟨failure | value, later⟩
      · rw [given] at kept
        exact ⟨rfl, kept⟩
      · rw [given] at kept
        subst kept
        exact ⟨empty, (bind_leaves id (fun _ _ => rfl) later).trans unchanged⟩

end Expansion

end TextGrammar
