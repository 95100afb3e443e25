import TextGrammar.Function.Builtin
import TextGrammar.Proofs.Effect
import TextGrammar.Rule.Pick

/-!
Rules in two worlds. Main statements: a rule gives the same text in related worlds if its handler
does, and that is the only thing about a world that rules can depend on; all functions that every
registry begins with, except the clock, depend on a world through its draws only.
-/

namespace TextGrammar

open Effect

variable {ρ ω : Type}

/-- A function rule respects a relation of worlds if its handler gives the same in related worlds
and leaves related worlds behind. Other rules do not read the world. -/
def Rule.Respects (related : ω → ω → Prop) : Rule ω → Prop
  | function handler parameters => Agree related (handler parameters) (handler parameters)
  | _ => True

/-- The sources are the same but for the worlds, which are related. -/
structure Sources.Alike (related : ω → ω → Prop) (sources sources' : Sources ρ ω) : Prop where
  generator : sources.generator = sources'.generator
  notes : sources.notes = sources'.notes
  world : related sources.world sources'.world

namespace Pick

variable {related : ω → ω → Prop} {α : Type}

/-- The step has the same outcome with sources that differ in related worlds. -/
abbrev Steady (related : ω → ω → Prop) (step : Pick ρ ω α) : Prop :=
  Agree (Sources.Alike related) step step

theorem steady_ofOutcome (outcome : Except Failure α) :
    Steady related (ofOutcome outcome : Pick ρ ω α) := by
  rintro ⟨generator, world, notes⟩ ⟨_, world', _⟩ ⟨rfl, rfl, holds⟩
  exact ⟨rfl, rfl, rfl, holds⟩

theorem steady_ofFault (outcome : Except Fault α) :
    Steady related (ofFault outcome : Pick ρ ω α) := steady_ofOutcome _

theorem steady_report (notes : List Note) : Steady related (report notes : Pick ρ ω Unit) := by
  rintro ⟨generator, world, notes⟩ ⟨_, world', _⟩ ⟨rfl, rfl, holds⟩
  exact ⟨rfl, rfl, rfl, holds⟩

theorem steady_call {handler : Handler ω} {parameters : Fields}
    (respects : Agree related (handler parameters) (handler parameters)) :
    Steady related (call handler parameters : Pick ρ ω Value) := by
  rintro ⟨generator, world, notes⟩ ⟨_, world', _⟩ ⟨rfl, rfl, holds⟩
  obtain ⟨same, kept⟩ := respects world world' holds
  exact ⟨same, rfl, rfl, kept⟩

variable [Draws ρ]

theorem steady_below (bound : Nat) (positive : 0 < bound) :
    Steady related (below bound positive : Pick ρ ω (Fin bound)) := by
  rintro ⟨generator, world, notes⟩ ⟨_, world', _⟩ ⟨rfl, rfl, holds⟩
  exact ⟨rfl, rfl, rfl, holds⟩

theorem steady_unit : Steady related (unit : Pick ρ ω Binary64) := by
  rintro ⟨generator, world, notes⟩ ⟨_, world', _⟩ ⟨rfl, rfl, holds⟩
  exact ⟨rfl, rfl, rfl, holds⟩

theorem steady_uniform (values : List Value) :
    Steady related (uniform values : Pick ρ ω String) := by
  unfold uniform
  by_cases positive : 0 < values.length
  · simp only [dif_pos positive]
    exact agree_bind (steady_below _ positive) fun place => steady_ofFault _
  · simp only [dif_neg positive]
    exact agree_pure ""

theorem steady_weighted (values weights : List Value) :
    Steady related (weighted values weights : Pick ρ ω String) := by
  refine agree_bind (steady_ofFault _) fun pairs => ?_
  unfold byWeight
  split
  · exact steady_uniform values
  · exact agree_bind steady_unit fun draw => steady_ofFault _

theorem steady_range (bounds : Range) : Steady related (range bounds : Pick ρ ω String) := by
  unfold range
  split
  · refine agree_bind (steady_ofFault _) fun width => ?_
    exact agree_bind steady_unit fun fraction => steady_ofFault _
  · refine agree_bind (steady_ofFault _) ?_
    rintro ⟨low, stride, count⟩
    by_cases positive : 0 < count.toNat
    · simp only [dif_pos positive]
      exact agree_bind (steady_below _ positive) fun place => steady_ofFault _
    · simp only [dif_neg positive]
      exact steady_ofFault _

theorem steady_template (bindings : Table (List Value)) (pieces : List Segment) :
    Steady related (template bindings pieces : Pick ρ ω (List Char)) := by
  induction pieces with
  | nil => exact agree_pure []
  | cons first rest ih =>
    cases first with
    | plain characters => exact agree_bind ih fun more => agree_pure _
    | slot name =>
      rw [template]
      cases bindings.get? name with
      | none => exact agree_bind ih fun more => agree_pure _
      | some values =>
        exact agree_bind (steady_uniform values) fun value => agree_bind ih fun more => agree_pure _

end Pick

/-- A rule whose handler respects a relation gives the same in related worlds. -/
theorem Rule.steady_pick [Draws ρ] {related : ω → ω → Prop} {rule : Rule ω}
    (respects : rule.Respects related) (context : Table String) :
    Pick.Steady related (rule.pick context : Pick ρ ω String) := by
  cases rule with
  | static values => exact Pick.steady_uniform values
  | function handler parameters =>
    refine agree_bind (Pick.steady_call respects) fun value => ?_
    exact agree_bind (Pick.steady_ofFault _) fun elements => Pick.steady_uniform elements
  | weighted values weights => exact Pick.steady_weighted values weights
  | conditional branches =>
    refine agree_bind (Pick.steady_report _) fun _ => ?_
    exact agree_bind (Pick.steady_ofOutcome _) fun values => Pick.steady_uniform values
  | sequential values cycle cursor =>
    simp only [Rule.pick]
    split
    · exact agree_pure ""
    · split
      · exact Pick.steady_ofFault _
      · exact agree_throw _
  | range bounds => exact Pick.steady_range bounds
  | template text bindings =>
    exact agree_bind (Pick.steady_template bindings _) fun characters => agree_pure _

/-! ### Functions that every registry begins with -/

/-- The numbers below bounds that are drawn one after the other. -/
def Draws.numbers [Draws ω] : List {bound : Nat // 0 < bound} → ω → List Nat
  | [], _ => []
  | bound :: rest, world =>
    let (number, later) := Draws.below bound.1 bound.2 world
    number :: numbers rest later

/-- The same numbers are drawn from both worlds, whatever the bounds. -/
def Draws.Alike [Draws ω] (world world' : ω) : Prop :=
  ∀ bounds, Draws.numbers bounds world = Draws.numbers bounds world'

namespace Builtin

variable [World ω]

theorem agree_below (bound : Nat) (positive : 0 < bound) :
    Agree Draws.Alike (below bound positive : Act ω (Fin bound)) (below bound positive) := by
  intro world world' alike
  have first := alike [⟨bound, positive⟩]
  simp only [Draws.numbers, List.cons.injEq, and_true] at first
  refine ⟨congrArg Except.ok (Fin.ext first), fun bounds => ?_⟩
  have both := alike (⟨bound, positive⟩ :: bounds)
  exact (List.cons.inj both).2

theorem agree_ofFault {α : Type} (outcome : Except Fault α) :
    Agree Draws.Alike (ofFault outcome : Act ω α) (ofFault outcome) := by
  intro world world' alike
  cases outcome <;> exact ⟨rfl, alike⟩

theorem agree_between (low high : Int) :
    Agree Draws.Alike (between low high : Act ω Int) (between low high) := by
  unfold between
  by_cases positive : 0 < (high - low + 1).toNat
  · simp only [dif_pos positive]
    exact agree_bind (agree_below _ positive) fun drawn => agree_pure _
  · simp only [dif_neg positive]
    exact agree_throw _

theorem agree_integer (parameters : Fields) (key : String) (otherwise : Int) :
    Agree Draws.Alike (integer parameters key otherwise : Act ω Int)
      (integer parameters key otherwise) := by
  unfold integer
  by_cases given : (parameters.get key).truthy = true
  · simp only [given, if_true]
    exact agree_ofFault _
  · simp only [given]
    exact agree_pure otherwise

theorem agree_rollAll (sides : Int) (count : Nat) (sum : Int) :
    Agree Draws.Alike (rollAll sides count sum : Act ω Int) (rollAll sides count sum) := by
  induction count generalizing sum with
  | zero => exact agree_pure sum
  | succ count ih => exact agree_bind (agree_between 1 sides) fun rolled => ih (sum + rolled)

theorem agree_numeral (value : Int) :
    Agree Draws.Alike (numeral value : Act ω Value) (numeral value) :=
  agree_bind (agree_ofFault _) fun _ => agree_pure _

theorem agree_randomChoice (parameters : Fields) :
    Agree Draws.Alike (randomChoice parameters : Act ω Value) (randomChoice parameters) := by
  have choose (choices : List Value) : Agree Draws.Alike
      (if positive : 0 < choices.length then do
        let place ← below choices.length positive
        return single (← ofFault (choices.get place).text)
      else return .list [] : Act ω Value)
      (if positive : 0 < choices.length then do
        let place ← below choices.length positive
        return single (← ofFault (choices.get place).text)
      else return .list []) := by
    by_cases positive : 0 < choices.length
    · simp only [dif_pos positive]
      refine agree_bind (agree_below _ positive) fun place => ?_
      exact agree_bind (agree_ofFault _) fun _ => agree_pure _
    · simp only [dif_neg positive]
      exact agree_pure _
  simp only [randomChoice]
  split
  · exact agree_bind (agree_pure _) choose
  · exact agree_bind (agree_ofFault _) choose

/-- Every function that a registry begins with, except the clock, gives the same in worlds that
draw alike, and leaves such worlds behind. -/
theorem agree_of_mem_all {definition : Definition ω} (member : definition ∈ all)
    (noClock : definition.name ≠ "currentTime") (parameters : Fields) :
    Agree Draws.Alike (definition.handler parameters) (definition.handler parameters) := by
  simp only [all, List.mem_cons, List.not_mem_nil, or_false] at member
  rcases member with rfl | rfl | rfl | rfl
  · refine agree_bind (agree_integer parameters "min" 1) fun low => ?_
    refine agree_bind (agree_integer parameters "max" 100) fun high => ?_
    exact agree_bind (agree_between low high) agree_numeral
  · refine agree_bind (agree_integer parameters "sides" 6) fun sides => ?_
    refine agree_bind (agree_integer parameters "count" 1) fun count => ?_
    exact agree_bind (agree_rollAll sides count.toNat 0) agree_numeral
  · exact absurd rfl noClock
  · exact agree_randomChoice parameters

end Builtin

end TextGrammar
