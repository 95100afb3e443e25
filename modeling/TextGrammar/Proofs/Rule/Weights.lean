import Mathlib.Algebra.BigOperators.Group.List.Basic
import Mathlib.Algebra.Order.Ring.Rat
import Mathlib.Order.Monotone.Basic
import Mathlib.Tactic.Linarith
import Mathlib.Tactic.NormNum
import TextGrammar.Proofs.Traversal
import TextGrammar.Random.Script
import TextGrammar.Rule.Pick

/-!
Choices by weight. The weights, cut at zero, lie side by side as intervals. Main statements: with
exact numbers a draw, stretched to the sum of the weights, lies in exactly one of the intervals, and
the value of that interval is chosen; without a positive weight each value is as likely as the
others. A weighted rule makes this choice once, with the weights beside its values read as
floating-point numbers.
-/

namespace TextGrammar

namespace Weighted

/-- Where the interval of a place begins: the sum of the weights before it, cut at zero. -/
def edge (weights : List ℚ) (place : Nat) : ℚ := ((weights.take place).map (max · 0)).sum

/-- A point lies in the interval of a place. -/
def Lies (weights : List ℚ) (point : ℚ) (place : Nat) : Prop :=
  edge weights place ≤ point ∧ point < edge weights (place + 1)

theorem cut_eq_max (weight : ℚ) : cut weight = max weight 0 := by
  unfold cut
  split
  · rename_i negative
    exact (max_eq_right negative.le).symm
  · rename_i nonnegative
    exact (max_eq_left (not_lt.mp nonnegative)).symm

@[simp]
theorem edge_zero (weights : List ℚ) : edge weights 0 = 0 := by simp [edge]

theorem edge_cons_succ (weight : ℚ) (weights : List ℚ) (place : Nat) :
    edge (weight :: weights) (place + 1) = cut weight + edge weights place := by
  simp [edge, cut_eq_max]

theorem edge_succ {weights : List ℚ} {place : Nat} {weight : ℚ}
    (found : weights[place]? = some weight) :
    edge weights (place + 1) = edge weights place + max weight 0 := by
  simp [edge, List.take_add_one, found]

theorem edge_mono (weights : List ℚ) : Monotone (edge weights) := by
  refine monotone_nat_of_le_succ fun place => ?_
  cases found : weights[place]? with
  | none => simp [edge, List.take_add_one, found]
  | some weight =>
    rw [edge_succ found]
    exact le_add_of_nonneg_right (le_max_right weight 0)

/-- The sum of the weights is where the last interval ends. -/
theorem total_eq_edge (weights : List ℚ) : total weights = edge weights weights.length := by
  have general (start : ℚ) (weights : List ℚ) :
      weights.foldl (fun sum weight => sum + cut weight) start =
        start + edge weights weights.length := by
    induction weights generalizing start with
    | nil => simp
    | cons weight rest ih =>
      rw [List.foldl_cons, ih, List.length_cons, edge_cons_succ, add_assoc]
  exact (general 0 weights).trans (zero_add _)

/-- No point lies in two intervals. -/
theorem Lies.unique {weights : List ℚ} {point : ℚ} {place other : Nat}
    (lies : Lies weights point place) (also : Lies weights point other) : place = other := by
  have upTo {front back : Nat} (inFront : Lies weights point front)
      (inBack : Lies weights point back) : back ≤ front := by
    by_contra above
    have ends := edge_mono weights (Nat.succ_le_of_lt (not_le.mp above))
    exact absurd (inFront.2.trans_le ends) (not_lt.mpr inBack.1)
  exact le_antisymm (upTo also lies) (upTo lies also)

/-- An interval that a point lies in is that of a positive weight. -/
theorem Lies.positive {weights : List ℚ} {point : ℚ} {place : Nat} {weight : ℚ}
    (lies : Lies weights point place) (found : weights[place]? = some weight) : 0 < weight := by
  have wide := lies.1.trans_lt lies.2
  rw [edge_succ found] at wide
  simpa using wide

/-- The intervals leave no gap: a point between the first edge and the last one lies in one of them,
and it is the value of that interval that the point lands on. -/
theorem landing_of_between {β : Type} {pairs : List (β × ℚ)} {start point : ℚ}
    (above : start ≤ point) (inside : point < start + total (pairs.map Prod.snd)) :
    ∃ place value weight, pairs[place]? = some (value, weight) ∧
      Lies (pairs.map Prod.snd) (point - start) place ∧
      landing point start pairs = some value := by
  induction pairs generalizing start with
  | nil =>
    simp only [List.map_nil, total, List.foldl_nil, add_zero] at inside
    exact absurd inside (not_lt.mpr above)
  | cons pair rest ih =>
    obtain ⟨value, weight⟩ := pair
    rw [List.map_cons, total_eq_edge, List.length_cons, edge_cons_succ] at inside
    by_cases first : point < start + cut weight
    · refine ⟨0, value, weight, rfl, ⟨?_, ?_⟩, if_pos first⟩
      · simpa using above
      · rw [List.map_cons, edge_cons_succ, edge_zero]
        linarith
    · have behind : point < start + cut weight + total (rest.map Prod.snd) := by
        rw [total_eq_edge]
        linarith
      obtain ⟨place, other, found⟩ := ih (not_lt.mp first) behind
      obtain ⟨otherWeight, given, ⟨begins, ends⟩, lands⟩ := found
      refine ⟨place + 1, other, otherWeight, given, ⟨?_, ?_⟩, (if_neg first).trans lands⟩
      · rw [List.map_cons, edge_cons_succ]
        linarith
      · rw [List.map_cons, edge_cons_succ]
        linarith

end Weighted

namespace Pick

open Effect Weighted

variable {ρ ω : Type} [Draws ρ]

/-- A choice among values as likely as each other takes the value at the place that is drawn. -/
theorem uniform_apply {values : List Value} (positive : 0 < values.length)
    (sources : Sources ρ ω) :
    uniform values sources =
      let drawn := Draws.below values.length positive sources.generator
      ((values.get drawn.1).text.mapError .fault, { sources with generator := drawn.2 }) := by
  simp only [uniform, dif_pos positive]
  rfl

/-- With a sum of weights that counts as positive, one number is drawn, and it decides. -/
theorem byWeight_of_draw {α : Type} [OfNat α 0] [Add α] [Mul α] [LT α] [DecidableLT α] [LE α]
    [DecidableLE α] {values : List Value} {pairs : List (Value × α)} {draw : Pick ρ ω α}
    {sources later : Sources ρ ω} {drawn : α} (positive : ¬ total (pairs.map Prod.snd) ≤ 0)
    (given : draw sources = (.ok drawn, later)) :
    byWeight draw values pairs sources =
      ((((choose pairs drawn).map Value.text).getD (.ok "")).mapError .fault, later) := by
  rw [byWeight, if_neg positive, bind_apply, given]
  rfl

/-! ### Exact weights -/

/-- With a positive sum of weights, a draw below one lies, stretched to that sum, in the interval of
exactly one place; the value there is chosen, its weight is positive, and none is taken for want of
an interval. Otherwise the value at a place drawn among all values is chosen, or nothing if there
are no values. -/
theorem byWeight_exact (values : List Value) (weights : List ℚ) (draw : Pick ρ ω ℚ)
    (sources : Sources ρ ω) :
    let pairs := values.zip weights
    let sum := edge (pairs.map Prod.snd) pairs.length
    (0 < sum → ∀ drawn later, draw sources = (.ok drawn, later) → 0 ≤ drawn → drawn < 1 →
      ∃ place value weight, pairs[place]? = some (value, weight) ∧ 0 < weight ∧
        (∀ other, Lies (pairs.map Prod.snd) (drawn * sum) other ↔ other = place) ∧
        landing (drawn * sum) 0 pairs = some value ∧
        byWeight draw values pairs sources = (value.text.mapError .fault, later)) ∧
    (sum ≤ 0 → ∀ positive : 0 < values.length,
      let chosen := Draws.below values.length positive sources.generator
      byWeight draw values pairs sources =
        ((values.get chosen.1).text.mapError .fault, { sources with generator := chosen.2 })) ∧
    (sum ≤ 0 → values = [] → byWeight draw values pairs sources = (.ok "", sources)) := by
  intro pairs sum
  have whole : total (pairs.map Prod.snd) = sum := by
    rw [total_eq_edge, List.length_map]
  refine ⟨?_, ?_, ?_⟩
  · intro positive drawn later given nonnegative below
    have start : 0 ≤ drawn * sum := mul_nonneg nonnegative positive.le
    have inside : drawn * sum < 0 + total (pairs.map Prod.snd) := by
      rw [whole, zero_add]
      exact mul_lt_of_lt_one_left positive below
    obtain ⟨place, value, weight, found, lies, lands⟩ := landing_of_between start inside
    rw [sub_zero] at lies
    have weighs : (pairs.map Prod.snd)[place]? = some weight := by
      rw [List.getElem?_map, found]
      rfl
    refine ⟨place, value, weight, found, lies.positive weighs, fun other => ?_, lands, ?_⟩
    · constructor
      · exact fun also => also.unique lies
      · rintro rfl
        exact lies
    · have chosen : choose pairs drawn = some value := by
        rw [choose, whole, lands]
        rfl
      rw [byWeight_of_draw (not_le.mpr (whole ▸ positive)) given, chosen]
      rfl
  · intro none positive
    rw [byWeight, if_pos (whole ▸ none)]
    exact uniform_apply positive sources
  · intro none empty
    rw [byWeight, if_pos (whole ▸ none), empty]
    rfl

/-- The third of three directions is chosen: by a draw behind the interval of the first one, the
second one having no interval, and, if no weight is positive, as the only one without a weight. -/
theorem west_by_weight :
    let directions : List Value := [.str "north", .str "south", .str "west"]
    let sources : Sources Script Unit := ⟨⟨[.int 2], []⟩, (), []⟩
    let draw : Pick Script Unit ℚ := fun sources => (.ok (3 / 4), sources)
    0 < edge [1 / 2, -1, 3 / 2] 3 ∧
    byWeight draw directions (directions.zip [1 / 2, -1, 3 / 2, 5]) sources =
      (.ok "west", sources) ∧
    edge [-1, 0] 2 ≤ 0 ∧
    byWeight draw directions (directions.zip [-1, 0]) sources =
      (.ok "west", ⟨⟨[], [.below 3]⟩, (), []⟩) ∧
    byWeight draw [] [] sources = (.ok "", sources) := by
  intro directions sources draw
  have positive : 0 < edge [1 / 2, -1, 3 / 2] 3 := by norm_num [edge]
  have none : edge [-1, 0] 2 ≤ 0 := by norm_num [edge]
  refine ⟨positive, ?_, none, ?_, ?_⟩
  · obtain ⟨place, value, weight, found, -, lies, -, picked⟩ :=
      (byWeight_exact directions [1 / 2, -1, 3 / 2, 5] draw sources).1 positive (3 / 4) sources rfl
        (by norm_num) (by norm_num)
    have third : Lies [1 / 2, -1, 3 / 2] (3 / 4 * edge [1 / 2, -1, 3 / 2] 3) 2 := by
      norm_num [Lies, edge]
    obtain rfl : 2 = place := (lies 2).mp third
    cases found
    exact picked
  · exact (byWeight_exact directions [-1, 0] draw sources).2.1 none (by decide)
  · exact (byWeight_exact [] [] draw sources).2.2 le_rfl rfl

end Pick

/-! ### Weighted rules -/

namespace Rule

open Effect Weighted

variable {ρ ω : Type} [Draws ρ]

/-- The weights beside the values are read as floating-point numbers; the values or weights that
are left over have no partner. -/
def Weighs (values weights : List Value) (pairs : List (Value × Binary64)) : Prop :=
  List.Forall₂ (fun beside pair => beside.1 = pair.1 ∧ beside.2.toBinary64 = .ok pair.2)
    (values.zip weights) pairs

theorem weighs_iff {values weights : List Value} {pairs : List (Value × Binary64)} :
    Weighs values weights pairs ↔
      ((values.zip weights).mapM fun (value, weight) => do
        return (value, ← weight.toBinary64) : Except Fault _) = .ok pairs := by
  rw [mapM_eq_ok_iff, Weighs]
  refine iff_of_eq (congrArg (List.Forall₂ · _ _) ?_)
  funext beside pair
  obtain ⟨value, weight⟩ := beside
  obtain ⟨other, number⟩ := pair
  simp only
  cases weight.toBinary64 <;> simp

/-- A weighted rule whose weights can be read chooses by weight. It draws one number between zero
and one, which decides on the value; or if the sum of the weights is not positive, one place among
all values. -/
theorem pick_weighted {values weights : List Value} {pairs : List (Value × Binary64)}
    (weighs : Weighs values weights pairs) (context : Table String) (sources : Sources ρ ω) :
    (weighted values weights : Rule ω).pick context sources =
        Pick.byWeight Pick.unit values pairs sources ∧
    (¬ total (pairs.map Prod.snd) ≤ 0 →
      let drawn := Draws.unit sources.generator
      (weighted values weights : Rule ω).pick context sources =
        ((((choose pairs drawn.1).map Value.text).getD (.ok "")).mapError .fault,
          { sources with generator := drawn.2 })) ∧
    (total (pairs.map Prod.snd) ≤ 0 →
      (weighted values weights : Rule ω).pick context sources = Pick.uniform values sources) := by
  have chooses : (weighted values weights : Rule ω).pick context sources =
      Pick.byWeight Pick.unit values pairs sources := by
    rw [pick, Pick.weighted, weighs_iff.mp weighs]
    rfl
  refine ⟨chooses, fun positive => ?_, fun none => ?_⟩
  · exact chooses.trans (Pick.byWeight_of_draw positive rfl)
  · rw [chooses, Pick.byWeight, if_pos none]

/-- A weighted rule with a weight beside a value that is no number fails before anything is
drawn. -/
theorem pick_weighted_of_unread {values weights : List Value} {value weight : Value}
    {reason : Fault} (beside : (value, weight) ∈ values.zip weights)
    (unread : weight.toBinary64 = .error reason) (context : Table String) (sources : Sources ρ ω) :
    ∃ first, (weighted values weights : Rule ω).pick context sources =
      (.error (.fault first), sources) := by
  cases read : ((values.zip weights).mapM fun (value, weight) => do
      return (value, ← weight.toBinary64) : Except Fault _) with
  | error first =>
    refine ⟨first, ?_⟩
    rw [pick, Pick.weighted, read]
    rfl
  | ok pairs =>
    obtain ⟨pair, -, failed⟩ := exists_output_of_mem read beside
    simp only [unread] at failed
    cases failed

end Rule

end TextGrammar
