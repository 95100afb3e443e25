import Mathlib
import TextGrammar.Proofs.History.Session
import TextGrammar.Random.Script

/-!
Sequential rules take turns. Main statement: through any run, the text that such a rule is resolved
to is determined by how often it has been resolved since it was registered or all rules were
restarted.
-/

namespace TextGrammar

variable {ρ ω : Type}

/-! ### Places -/

namespace Rule

/-- The place of a turn in a list: around the end, or up to the last place. -/
def placeAt (count : Nat) (cycle : Bool) (turn : Nat) : Nat :=
  if cycle then turn % count else min turn (count - 1)

theorem placeAt_lt {count : Nat} (positive : 0 < count) (cycle : Bool) (turn : Nat) :
    placeAt count cycle turn < count := by
  cases cycle with
  | true => exact Nat.mod_lt turn positive
  | false =>
    simp only [placeAt, Bool.false_eq_true, if_false]
    omega

theorem placeAt_zero (count : Nat) (cycle : Bool) : placeAt count cycle 0 = 0 := by
  cases cycle <;> simp [placeAt]

/-- The cursor goes from the place of a turn to that of the next one. -/
theorem nextCursor_placeAt {count : Nat} (positive : 0 < count) (cycle : Bool) (turn : Nat) :
    nextCursor count cycle (placeAt count cycle turn) = placeAt count cycle (turn + 1) := by
  cases cycle with
  | true =>
    simp only [nextCursor, placeAt, if_true]
    rw [← Nat.mod_add_mod]
    rfl
  | false =>
    simp only [nextCursor, placeAt, Bool.false_eq_true, if_false]
    omega

theorem valueAt?_natCast (values : List Value) (place : Nat) :
    valueAt? values place = values[place]? := by
  have natural : ¬ (place : Int) < 0 := by omega
  simp [valueAt?, natural]

end Rule

/-! ### Turns -/

/-- How often the rule under a name has been resolved since the last restart, behind an event. -/
def Event.turn (name : String) (turn : Nat) : Event ω → Nat
  | .resolved other _ => if other = name then turn + 1 else turn
  | .restarted => 0
  | .registered .. | .removed _ | .cleared => turn

/-- How often events resolve the rule under a name, counted from the last restart on. -/
def turns (name : String) (events : List (Event ω)) : Nat := events.foldl (Event.turn name) 0

/-- If there is a rule under the name, it is the sequential one at the place of the turn. -/
def InTurn (name : String) (values : List Value) (cycle : Bool) (turn : Nat)
    (rules : Table (Rule ω)) : Prop :=
  ∀ rule, rules.get? name = some rule →
    rule = .sequential values cycle (Rule.placeAt values.length cycle turn)

variable [Draws ρ] {name : String} {values : List Value} {cycle : Bool} {turn : Nat}
  {rules later : Table (Rule ω)}

theorem advance_inTurn (nonempty : values ≠ []) :
    (Rule.sequential values cycle (Rule.placeAt values.length cycle turn) : Rule ω).advance =
      .sequential values cycle (Rule.placeAt values.length cycle (turn + 1)) := by
  have positive : 0 < values.length := List.length_pos_iff.mpr nonempty
  have full : values.isEmpty = false := by simpa using nonempty
  simp [Rule.advance, full, Rule.nextCursor_placeAt positive]

/-- Every event but a registration under the name keeps the rule in its turn. -/
theorem inTurn_change (nonempty : values ≠ []) {event : Event ω}
    (inTurn : InTurn name values cycle turn rules) (change : event.Changes ρ rules later)
    (kept : ∀ registration, event ≠ .registered name registration) :
    InTurn name values cycle (event.turn name turn) later := by
  intro rule found
  cases change with
  | registered other registration =>
    have different : name ≠ other := by
      rintro rfl
      exact kept registration rfl
    rw [Table.get?_put_of_ne _ _ different] at found
    exact inTurn rule found
  | removed other =>
    by_cases same : name = other
    · subst same
      rw [Table.get?_erase_self] at found
      cases found
    · rw [Table.get?_erase_of_ne _ same] at found
      exact inTurn rule found
  | cleared => cases found
  | restarted =>
    rw [Table.get?_mapValues] at found
    obtain ⟨before, present, rfl⟩ := Option.map_eq_some_iff.mp found
    rw [inTurn before present]
    simp [Event.turn, Rule.reset, Rule.placeAt_zero]
  | resolved present gives =>
    rename_i other text resolved
    by_cases same : other = name
    · subst same
      rw [Table.get?_put_self] at found
      cases found
      rw [inTurn resolved present, advance_inTurn nonempty]
      simp [Event.turn]
    · rw [Table.get?_put_of_ne _ _ (Ne.symm same)] at found
      simpa [Event.turn, same] using inTurn rule found

/-- Events without a registration under the name keep the rule in its turn. -/
theorem inTurn_history (nonempty : values ≠ []) {events : List (Event ω)}
    (inTurn : InTurn name values cycle turn rules) (history : History ρ events rules later)
    (kept : ∀ registration, .registered name registration ∉ events) :
    InTurn name values cycle (events.foldl (Event.turn name) turn) later := by
  induction history generalizing turn with
  | done => exact inTurn
  | next first behind ih =>
    refine ih (inTurn_change nonempty inTurn first fun registration same => ?_)
      fun registration member => kept registration (List.mem_cons_of_mem _ member)
    exact kept registration (same ▸ List.mem_cons_self)

/-- The rule gives the text of the value at the place of its turn. -/
theorem text_inTurn (nonempty : values ≠ []) {text : String}
    (inTurn : InTurn name values cycle turn rules)
    (change : (Event.resolved name text).Changes ρ rules later) :
    ∃ value, values[Rule.placeAt values.length cycle turn]? = some value ∧
      value.text = .ok text := by
  cases change with
  | resolved found gives =>
    obtain ⟨context, before, behind, picked⟩ := gives
    rw [inTurn _ found] at picked
    have full : values.isEmpty = false := by simpa using nonempty
    have inside := Rule.placeAt_lt (List.length_pos_iff.mpr nonempty) cycle turn
    have there := List.getElem?_eq_getElem inside
    refine ⟨_, there, ?_⟩
    simp only [Rule.pick, full, Rule.valueAt?_natCast, there] at picked
    exact Effect.mapError_eq_ok_iff.mp (congrArg Prod.fst picked)

/-! ### Runs -/

/-- In the history of any run, which leads from the rules at its beginning to those at its end,
every resolution of a sequential rule gives the value whose turn it is: turns are counted from its
latest registration or from a later restart. A slot on the last level is no resolution, and nothing
changes there. -/
theorem sequential_in_turn [Seeded ρ] [World ω] (session : Session ρ ω)
    (actions : List (Action ω)) :
    History ρ (session.history actions) session.engine.rules
      (session.run actions).engine.rules ∧
    (∀ name values cycle before between text after, values ≠ [] →
      session.history actions = before ++ .registered name (.sequential values cycle) ::
        (between ++ .resolved name text :: after) →
      (∀ registration, .registered name registration ∉ between) →
      ∃ value, values[Rule.placeAt values.length cycle (turns name between)]? = some value ∧
        value.text = .ok text) ∧
    (∀ recording text (run : Run ρ ω), Expansion.journal recording 0 text run = [] ∧
      (Expansion.expand recording 0 text run).2 = run) := by
  have history := session.history_run actions
  refine ⟨history, ?_, Expansion.journal_zero⟩
  intro name values cycle before between text after nonempty is kept
  rw [is] at history
  obtain ⟨earlier, -, history⟩ := History.append_iff.mp history
  cases history with
  | next registered history =>
    cases registered
    obtain ⟨rules, meanwhile, history⟩ := History.append_iff.mp history
    have first : InTurn name values cycle 0
        (earlier.put name (Registration.sequential values cycle).rule) := by
      intro rule found
      rw [Table.get?_put_self] at found
      cases found
      rw [Rule.placeAt_zero]
      rfl
    cases history with
    | next resolved =>
      exact text_inTurn nonempty (inTurn_history nonempty first meanwhile kept) resolved

/-! ### Weekdays -/

/-- A script starts anew without draws. -/
instance : Seeded Script := ⟨fun _ => ⟨[], []⟩⟩

/-- A script as a world, whose clock shows nothing. -/
instance : World Script := { clock := fun _ _ => "" }

def idle : Session Script Script := ⟨Engine.new, .empty, ⟨[], []⟩⟩

/-- Two days in turn, a restart in between, and a slot that is refused before the second turn. -/
def weekdays : List (Action Script) :=
  [.register "day" (.sequential [.str "mon", .str "tue"] true), .generate "%day% or %day%" false,
    .resetCursors, .generate "%day%" true,
    .register "loop" (.static [.str "%loop%"]), .setMaxDepth 1, .generate "%loop% %day%" false,
    .generate "%day%" false]

/-- What happens after the days are registered and before the turn behind the refused slot. -/
def meanwhile : List (Event Script) :=
  [.resolved "day" "mon", .resolved "day" "tue", .restarted, .resolved "day" "mon",
    .registered "loop" (.static [.str "%loop%"]), .resolved "loop" "%loop%"]

theorem weekdays_in_turn :
    [Value.str "mon", .str "tue"] ≠ [] ∧
    idle.history weekdays = [] ++ .registered "day" (.sequential [.str "mon", .str "tue"] true) ::
      (meanwhile ++ .resolved "day" "tue" :: []) ∧
    ∃ value, [Value.str "mon", .str "tue"][Rule.placeAt 2 true 1]? = some value ∧
      value.text = .ok "tue" := by
  have nonempty : [Value.str "mon", .str "tue"] ≠ [] := List.cons_ne_nil _ _
  have is : idle.history weekdays =
      [] ++ .registered "day" (.sequential [.str "mon", .str "tue"] true) ::
        (meanwhile ++ .resolved "day" "tue" :: []) := by
    cbv
  obtain ⟨-, inTurn, -⟩ := sequential_in_turn idle weekdays
  exact ⟨nonempty, is, inTurn _ _ _ _ _ _ _ nonempty is (by simp [meanwhile])⟩

end TextGrammar
