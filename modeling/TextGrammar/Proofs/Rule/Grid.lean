import Mathlib
import TextGrammar.Proofs.Effect
import TextGrammar.Proofs.Number.Ceiling
import TextGrammar.Proofs.Number.Short
import TextGrammar.Random.Script
import TextGrammar.Rule.Pick

/-!
Ranges of integers. The count of the numbers to draw from is a quotient that is rounded to a
floating-point number before it is rounded up. Main statement: a range gives the first numbers of
its grid up to that count, so that it gives exactly the grid if its width takes no more than 53
bits, and the count shows whether it does so beyond; a number with too many digits for a text is an
error, and so is a width that no floating-point number is near to.
-/

namespace TextGrammar

/-- The rule can give the text, in some context and for some draws. -/
def Rule.CanGive (rule : Rule Unit) (text : String) : Prop :=
  ∃ (context : Table String) (sources later : Sources Script Unit),
    rule.pick context sources = (.ok text, later)

namespace Range

/-- A range of integers. -/
def ofInts (min max : Int) (step : Value) : Range := ⟨.int min, .int max, step, false⟩

/-- A step of a range of integers and the distance that it stands for. -/
inductive Steps : Value → Int → Prop where
  | one : Steps .null 1
  | every {stride : Int} (positive : 0 < stride) : Steps (.int stride) stride

/-- The text of a number of the grid that begins at the lower bound and stays below the upper
one. -/
def OnGrid (min max stride : Int) (text : String) : Prop :=
  ∃ place : Nat, min + place * stride < max ∧ text = toString (min + place * stride)

/-- How many numbers of its grid a range draws from: its width by its stride, rounded to the nearest
floating-point number and then up, but at least one. -/
def points (width stride : Nat) : Nat :=
  1 ⊔ ⌈(Binary64.ofQuotient false width stride).toRat⌉.toNat

variable {low high stride : Int} {step : Value}

theorem Steps.positive (steps : Steps step stride) : 0 < stride := by
  cases steps with
  | one => exact Int.one_pos
  | every positive => exact positive

theorem Steps.stride_eq (steps : Steps step stride) : Range.stride step = .ok stride := by
  cases steps with
  | one => rfl
  | every positive =>
    have present : (Value.int stride).truthy = true := by
      simp [Value.truthy, Scalar.truthy, Number.isZero, positive.ne']
    have wanted : compare stride 1 = .gt ∨ compare stride 1 = .eq := by
      rw [compare_gt_iff_gt, compare_eq_iff_eq]
      omega
    have found : stepIf (fun order => order = some .gt || order = some .eq) 1 (.int stride) =
        .ok (some (.int stride)) := by
      simp only [stepIf, if_pos present, Value.number?, Scalar.number?, Number.compare?]
      rcases wanted with more | same
      · simp [more]
      · simp [same]
    rw [Range.stride, found]
    rfl

/-- The width by the stride, unless it is too great. -/
theorem div_of_pos {width : Int} (wide : 0 < width) (positive : 0 < stride) :
    (Binary64.overflow * stride ≤ width →
      Number.div (.int width) (.int stride) = .error .tooLarge) ∧
    (width < Binary64.overflow * stride → ∃ significand exponent,
      Binary64.ofQuotient false width.natAbs stride.natAbs = .finite false significand exponent ∧
        Number.div (.int width) (.int stride) = .ok (.finite false significand exponent)) := by
  have sign : (decide (width < 0) != decide (stride < 0)) = false := by
    rw [decide_eq_false (not_lt.mpr wide.le), decide_eq_false (not_lt.mpr positive.le)]
    rfl
  have some : width.natAbs ≠ 0 := by omega
  have some' : 0 < stride.natAbs := by omega
  have infinite := Binary64.ofQuotient_eq_infinity_iff_overflow some some' false false
  have same : ((Binary64.overflow * stride.natAbs : ℕ) : Int) = Binary64.overflow * stride := by
    rw [Nat.cast_mul, Int.natAbs_of_nonneg positive.le]
  constructor
  · intro reached
    have beyond : Binary64.overflow * stride.natAbs ≤ width.natAbs := by omega
    rw [Number.div, sign, infinite.mpr ⟨rfl, beyond⟩]
  · intro less
    have bounded : Binary64.ofQuotient false width.natAbs stride.natAbs ≠ .infinity false := by
      intro high
      have beyond := (infinite.mp high).2
      omega
    obtain ⟨significand, exponent, finite⟩ := Binary64.ofQuotient_finite_of_ne bounded
    refine ⟨significand, exponent, finite, ?_⟩
    rw [Number.div, sign, finite]

theorem grid_ofInts (wide : low < high) (steps : Steps step stride) :
    (Binary64.overflow * stride ≤ high - low → (ofInts low high step).grid = .error .tooLarge) ∧
    (high - low < Binary64.overflow * stride → (ofInts low high step).grid =
      .ok (low, stride,
        ⌈(Binary64.ofQuotient false (high - low).natAbs stride.natAbs).toRat⌉)) := by
  obtain ⟨tooLarge, fits⟩ := div_of_pos (sub_pos.mpr wide) steps.positive
  have start : (ofInts low high step).grid = (do
      let quotient ← Number.div (.int (high - low)) (.int stride)
      let count ← (Number.real quotient).ceil
      return (low, stride, count)) := by
    simp only [grid, ofInts, steps.stride_eq]
    rfl
  rw [start]
  constructor
  · intro reached
    rw [tooLarge reached]
    rfl
  · intro less
    obtain ⟨significand, exponent, finite, divided⟩ := fits less
    have up (value : ℚ) : ⌈value⌉ = value.ceil := (Rat.ceil_eq_neg_floor_neg value).symm
    rw [divided, finite, up]
    rfl

end Range

section

variable {ρ ω : Type} [Draws ρ] {bounds : Range} {low stride count : Int}
  (whole : bounds.real = false) (grid : bounds.grid = .ok (low, stride, count))

include whole grid

/-- A number of the grid is drawn among as many as the count says. -/
theorem Pick.range_of_pos (positive : 0 < count.toNat) (sources : Sources ρ ω) :
    Pick.range bounds sources =
      let drawn := Draws.below count.toNat positive sources.generator
      ((Numeral.text (low + drawn.1.val * stride)).mapError .fault,
        { sources with generator := drawn.2 }) := by
  rw [Pick.range, if_neg (by simp [whole]), Effect.bind_apply, grid]
  simp only [Pick.ofFault, Pick.ofOutcome, Except.mapError, dif_pos positive]
  rfl

/-- Without a count the lower bound is given. -/
theorem Pick.range_of_zero (none : count.toNat = 0) (sources : Sources ρ ω) :
    Pick.range bounds sources = ((Numeral.text low).mapError .fault, sources) := by
  rw [Pick.range, if_neg (by simp [whole]), Effect.bind_apply, grid]
  simp only [Pick.ofFault, Pick.ofOutcome, Except.mapError, dif_neg (Nat.not_lt.mpr none.le)]

/-- Whatever is drawn, the range gives one of the first numbers of its grid, if it has a text. -/
theorem Pick.exists_range_eq (sources : Sources ρ ω) :
    ∃ place : Nat, place < 1 ⊔ count.toNat ∧ ∃ later, Pick.range bounds sources =
      ((Numeral.text (low + place * stride)).mapError .fault, later) := by
  by_cases positive : 0 < count.toNat
  · refine ⟨_, ?_, _, range_of_pos whole grid positive sources⟩
    exact (Fin.isLt _).trans_le le_sup_right
  · refine ⟨0, Nat.one_pos.trans_le le_sup_left, sources, ?_⟩
    rw [range_of_zero whole grid (Nat.eq_zero_of_not_pos positive), Nat.cast_zero, zero_mul,
      add_zero]

/-- Each of these numbers that has a text is given for some draw. -/
theorem Rule.canGive_range_iff {text : String} :
    (Rule.range bounds).CanGive text ↔ ∃ place : Nat, place < 1 ⊔ count.toNat ∧
      Numeral.Short (low + place * stride) ∧ text = toString (low + place * stride) := by
  constructor
  · rintro ⟨context, sources, later, picked⟩
    obtain ⟨place, inside, after, drawn⟩ := Pick.exists_range_eq whole grid sources
    refine ⟨place, inside, Numeral.text_eq_ok_iff.mp ?_⟩
    have same := (picked.symm.trans drawn : (Except.ok text, later) = _)
    exact Effect.mapError_eq_ok_iff.mp (Prod.mk.inj same).1.symm
  · rintro ⟨place, inside, short, rfl⟩
    refine ⟨.empty, ⟨⟨[.int place], []⟩, (), []⟩, ?_⟩
    have written := Numeral.text_of_short short
    by_cases positive : 0 < count.toNat
    · have below : place < count.toNat := by
        rcases lt_sup_iff.mp inside with first | below
        · omega
        · exact below
      have drawn : Draws.below count.toNat positive (⟨[.int place], []⟩ : Script) =
          (⟨place, below⟩, ⟨[], [.below count.toNat]⟩) :=
        Script.below_of_lt positive ⟨place, below⟩ rfl
      refine ⟨⟨⟨[], [.below count.toNat]⟩, (), []⟩, ?_⟩
      refine (Pick.range_of_pos whole grid positive _).trans ?_
      rw [drawn]
      dsimp only
      rw [written]
      rfl
    · have first : place = 0 := by
        rcases lt_sup_iff.mp inside with first | below
        · omega
        · exact absurd (Nat.zero_lt_of_lt below) positive
      subst first
      refine ⟨⟨⟨[.int 0], []⟩, (), []⟩, ?_⟩
      rw [Nat.cast_zero, zero_mul, add_zero] at written ⊢
      refine (Pick.range_of_zero whole grid (Nat.eq_zero_of_not_pos positive) _).trans ?_
      rw [written]
      rfl

end

namespace Range

variable {low high stride : Int} {step : Value}

/-- How many numbers the grid has. -/
theorem onGrid_iff (positive : 0 < stride) {text : String} :
    OnGrid low high stride text ↔ ∃ place : Nat,
      (place : Int) < ⌈((high - low : Int) : ℚ) / stride⌉ ∧
        text = toString (low + place * stride) := by
  have stride_pos : (0 : ℚ) < stride := by exact_mod_cast positive
  refine exists_congr fun place => and_congr_left' ?_
  rw [Int.lt_ceil, lt_div_iff₀ stride_pos]
  norm_cast
  omega

/-- Different counts of first numbers of a grid have different texts. -/
theorem texts_eq_iff (positive : 0 < stride) {count other : Nat} :
    (∀ text, (∃ place : Nat, place < count ∧ text = toString (low + place * stride)) ↔
      ∃ place : Nat, place < other ∧ text = toString (low + place * stride)) ↔ count = other := by
  have below {count other : Nat} (given : ∀ text,
      (∃ place : Nat, place < count ∧ text = toString (low + place * stride)) →
        ∃ place : Nat, place < other ∧ text = toString (low + place * stride)) :
      count ≤ other := by
    by_contra more
    obtain ⟨place, inside, same⟩ := given _ ⟨other, not_le.mp more, rfl⟩
    rw [Int.toString_eq_repr, Int.toString_eq_repr, Int.repr_inj, add_right_inj] at same
    have equal := Int.eq_of_mul_eq_mul_right positive.ne' same
    omega
  constructor
  · intro same
    exact le_antisymm (below fun text => (same text).mp) (below fun text => (same text).mpr)
  · rintro rfl text
    exact Iff.rfl

/-- The rounded count is that of the grid if the width takes no more than 53 bits. -/
theorem points_eq_ceil {width : Int} (wide : 0 < width) (positive : 0 < stride)
    (small : width ≤ 2 ^ 53) :
    (points width.natAbs stride.natAbs : Int) = ⌈(width : ℚ) / stride⌉ := by
  lift width to Nat using wide.le
  lift stride to Nat using positive.le
  have width_pos : (0 : ℚ) < width := by exact_mod_cast wide
  have stride_pos : (0 : ℚ) < stride := by exact_mod_cast positive
  have nonzero : width ≠ 0 := by omega
  have stride_pos' : 0 < stride := by omega
  have some : 0 < ⌈(width : ℚ) / stride⌉ := Int.ceil_pos.mpr (by positivity)
  simp only [Int.natAbs_natCast, Int.cast_natCast, points]
  rcases le_total stride width with least | less
  · rw [Binary64.ceil_toRat_ofQuotient nonzero stride_pos' least (by omega)]
    omega
  · have one : (width : ℚ) / stride ≤ (1 : ℕ) := by
      rw [Nat.cast_one, div_le_one stride_pos]
      exact_mod_cast less
    have rounded : ⌈(Binary64.ofQuotient false width stride).toRat⌉ ≤ 1 := by
      refine Int.ceil_le.mpr ?_
      exact_mod_cast Binary64.toRat_ofQuotient_le nonzero stride_pos' one (by norm_num)
    have exact : ⌈(width : ℚ) / stride⌉ ≤ 1 := Int.ceil_le.mpr (by exact_mod_cast one)
    omega

theorem lt_overflow_mul {width : Int} (positive : 0 < stride) (small : width ≤ 2 ^ 53) :
    width < Binary64.overflow * stride := by
  have range : (2 : Int) ^ 53 < Binary64.overflow := by
    exact_mod_cast Binary64.lt_overflow le_rfl
  have more : (Binary64.overflow : Int) ≤ Binary64.overflow * stride :=
    le_mul_of_one_le_right (Int.natCast_nonneg _) positive
  omega

end Range

section

variable {low high stride : Int} {step : Value} (wide : low < high)
  (steps : Range.Steps step stride) (less : high - low < Binary64.overflow * stride)

include wide steps less

theorem Rule.canGive_ofInts_iff {text : String} :
    (Rule.range (Range.ofInts low high step)).CanGive text ↔
      ∃ place : Nat, place < Range.points (high - low).natAbs stride.natAbs ∧
        Numeral.Short (low + place * stride) ∧ text = toString (low + place * stride) :=
  canGive_range_iff rfl ((Range.grid_ofInts wide steps).2 less)

/-- The texts are those of the grid if the rounded count is that of the grid, as long as every
number has a text. -/
theorem Rule.canGive_iff_onGrid_iff (short : ∀ place : Nat,
      place < Range.points (high - low).natAbs stride.natAbs →
        Numeral.Short (low + place * stride)) :
    (∀ text, (Rule.range (Range.ofInts low high step)).CanGive text ↔
      Range.OnGrid low high stride text) ↔
    (Range.points (high - low).natAbs stride.natAbs : Int) =
      ⌈((high - low : Int) : ℚ) / stride⌉ := by
  have positive := steps.positive
  have width_pos : (0 : ℚ) < (high - low : Int) := by exact_mod_cast sub_pos.mpr wide
  have stride_pos : (0 : ℚ) < stride := by exact_mod_cast positive
  obtain ⟨whole, same⟩ : ∃ whole : Nat, ⌈((high - low : Int) : ℚ) / stride⌉ = whole :=
    Int.eq_ofNat_of_zero_le (Int.ceil_nonneg (by positivity))
  have given (text : String) : (Rule.range (Range.ofInts low high step)).CanGive text ↔
      ∃ place : Nat, place < Range.points (high - low).natAbs stride.natAbs ∧
        text = toString (low + place * stride) := by
    refine (canGive_ofInts_iff wide steps less).trans (exists_congr fun place => ?_)
    exact and_congr_right fun inside => and_iff_right (short place inside)
  simp only [given, Range.onGrid_iff positive, same, Nat.cast_lt, Nat.cast_inj]
  exact Range.texts_eq_iff positive

end

/-- A range of integers gives, whatever is drawn, one of the first numbers of its grid, as many as
the rounded quotient says, and each of them for some draw, unless the number has too many digits for
a text, which is an error. If all of them have a text, it gives the grid and nothing else exactly if
this count is that of the grid, which is so if the width takes no more than 53 bits. If no number is
near to the quotient, the range gives an error. -/
theorem Rule.range_of_ints {ρ ω : Type} [Draws ρ] {low high stride : Int} {step : Value}
    (wide : low < high) (steps : Range.Steps step stride) (context : Table String) :
    let bounds := Range.ofInts low high step
    let count := Range.points (high - low).natAbs stride.natAbs
    (Binary64.overflow * stride ≤ high - low → ∀ sources : Sources ρ ω,
      (Rule.range bounds).pick context sources = (.error (.fault .tooLarge), sources)) ∧
    (high - low < Binary64.overflow * stride →
      (∀ sources : Sources ρ ω, ∃ place : Nat, place < count ∧ ∃ later,
        (Rule.range bounds).pick context sources =
          ((Numeral.text (low + place * stride)).mapError .fault, later)) ∧
      (∀ text, (Rule.range bounds).CanGive text ↔ ∃ place : Nat, place < count ∧
        Numeral.Short (low + place * stride) ∧ text = toString (low + place * stride)) ∧
      ((∀ place : Nat, place < count → Numeral.Short (low + place * stride)) →
        ((∀ text, (Rule.range bounds).CanGive text ↔ Range.OnGrid low high stride text) ↔
          (count : Int) = ⌈((high - low : Int) : ℚ) / stride⌉))) ∧
    (high - low ≤ 2 ^ 53 →
      (count : Int) = ⌈((high - low : Int) : ℚ) / stride⌉ ∧
      ((∀ place : Nat, place < count → Numeral.Short (low + place * stride)) →
        ∀ text, (Rule.range bounds).CanGive text ↔ Range.OnGrid low high stride text)) := by
  intro bounds count
  obtain ⟨tooLarge, fits⟩ := Range.grid_ofInts wide steps
  refine ⟨?_, ?_, ?_⟩
  · intro reached sources
    show Pick.range bounds sources = _
    rw [Pick.range, if_neg (by simp [bounds, Range.ofInts]), Effect.bind_apply, tooLarge reached]
    rfl
  · intro less
    refine ⟨Pick.exists_range_eq rfl (fits less), fun text => ?_, fun short => ?_⟩
    · exact canGive_ofInts_iff wide steps less
    · exact canGive_iff_onGrid_iff wide steps less short
  · intro small
    have less := Range.lt_overflow_mul steps.positive small
    have exact := Range.points_eq_ceil (sub_pos.mpr wide) steps.positive small
    exact ⟨exact, fun short => (canGive_iff_onGrid_iff wide steps less short).mpr exact⟩

/-- Every third number from zero up to nine, and never ten. -/
theorem thirds_below_ten :
    (0 : Int) < 10 ∧ Range.Steps (.int 3) 3 ∧
      (∀ text, (Rule.range (Range.ofInts 0 10 (.int 3))).CanGive text ↔
        Range.OnGrid 0 10 3 text) ∧
      (Rule.range (Range.ofInts 0 10 (.int 3))).CanGive "9" := by
  have wide : (0 : Int) < 10 := by decide
  have steps : Range.Steps (.int 3) 3 := .every (by decide)
  obtain ⟨-, -, exact⟩ := Rule.range_of_ints (ρ := Script) (ω := Unit) wide steps .empty
  obtain ⟨count, same⟩ := exact (by decide)
  have most : Range.points (10 - 0 : Int).natAbs (3 : Int).natAbs = 4 := by decide +kernel
  have short : ∀ place : Nat, place < Range.points (10 - 0 : Int).natAbs (3 : Int).natAbs →
      Numeral.Short (0 + place * 3) := by
    intro place inside
    rw [zero_add]
    exact_mod_cast Numeral.short_of_lt (by omega : place * 3 < 10 ^ 3)
  exact ⟨wide, steps, same short, (same short "9").mpr ⟨3, by decide, by decide⟩⟩

/-- From 53 bits on the quotient may be rounded past the count of the grid, so that the upper bound
is given, or to a smaller one, so that the last number of the grid is not. -/
theorem upper_bound_is_given :
    ((Rule.range (Range.ofInts 0 9007199254740995 .null)).CanGive "9007199254740995" ∧
      ¬ Range.OnGrid 0 9007199254740995 1 "9007199254740995") ∧
    ¬ (Rule.range (Range.ofInts 0 9007199254740993 .null)).CanGive "9007199254740992" ∧
      Range.OnGrid 0 9007199254740993 1 "9007199254740992" := by
  have above : (Range.ofInts 0 9007199254740995 .null).grid = .ok (0, 1, 9007199254740996) := by
    decide +kernel
  have below : (Range.ofInts 0 9007199254740993 .null).grid = .ok (0, 1, 9007199254740992) := by
    decide +kernel
  have numeral {place other : Nat}
      (same : toString (other : Int) = toString ((0 : Int) + place * 1)) : other = place := by
    rw [Int.toString_eq_repr, Int.toString_eq_repr, Int.repr_inj, zero_add, mul_one] at same
    exact_mod_cast same
  refine ⟨⟨?_, ?_⟩, ?_, ?_⟩
  · refine (Rule.canGive_range_iff rfl above).mpr ⟨9007199254740995, by decide, ?_, by decide⟩
    rw [zero_add, mul_one]
    have few : 9007199254740995 < 10 ^ 16 := by norm_num
    exact Numeral.short_natCast.mpr (few.trans_le (Nat.pow_le_pow_right (by decide) (by decide)))
  · rintro ⟨place, inside, same⟩
    have reached := @numeral place 9007199254740995 same
    omega
  · intro given
    obtain ⟨place, inside, -, same⟩ := (Rule.canGive_range_iff rfl below).mp given
    have reached := @numeral place 9007199254740992 same
    have most : place < 9007199254740992 := by simpa using inside
    omega
  · exact ⟨9007199254740992, by decide, by decide⟩

end TextGrammar
