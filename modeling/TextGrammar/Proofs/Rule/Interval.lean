import TextGrammar.Proofs.Effect
import TextGrammar.Proofs.Number.Decimal
import TextGrammar.Random.Script
import TextGrammar.Rule.Pick

/-!
Ranges of real numbers whose operations are exact. Main statement: the text that such a range gives
denotes the decimal nearest to a number of the range, with two places or as many as the step has; so
it is a number of the range itself if the lower bound and the step have no more places.
-/

namespace TextGrammar

open Number

namespace Range

/-! ### Ranges of exact numbers -/

/-- A step of a range of real numbers and its exact value, if there is one. -/
inductive Distance : Value → Option ℚ → Prop where
  | none : Distance .null none
  | some {step : Value} {number : Number} {distance : ℚ} (given : step.number? = some number)
      (same : number.value? = some distance) (positive : 0 < distance) :
      Distance step (some distance)

theorem Distance.positive {step : Value} {stride : Option ℚ} (measured : Distance step stride) :
    ∀ distance ∈ stride, 0 < distance := by
  cases measured with
  | none => exact nofun
  | some given same positive =>
    rintro _ ⟨⟩
    exact positive

/-- The exact values of the bounds and the step of a range of real numbers. -/
structure Measures (bounds : Range) (low high : ℚ) (stride : Option ℚ) : Prop where
  real : bounds.real = true
  min : ∃ number, numberOf bounds.min = .ok number ∧ number.value? = some low
  max : ∃ number, numberOf bounds.max = .ok number ∧ number.value? = some high
  step : Distance bounds.step stride

/-- Taking a number at an offset from the lower bound down to the grid is exact in every
operation. -/
structure ExactStep (low offset distance : ℚ) : Prop where
  isValue : Binary64.IsValue distance
  quotient : Binary64.IsValue (offset / distance)
  product : Binary64.IsValue (⌊offset / distance⌋ * distance)
  sum : Binary64.IsValue (low + ⌊offset / distance⌋ * distance)

/-- Going part of the way between the bounds, and from there down to the grid, is exact in every
operation. -/
structure Exact (low high part : ℚ) (stride : Option ℚ) : Prop where
  isValue : Binary64.IsValue part
  least : Binary64.IsValue low
  most : Binary64.IsValue high
  width : Binary64.IsValue (high - low)
  offset : Binary64.IsValue (part * (high - low))
  sum : Binary64.IsValue (low + part * (high - low))
  step : ∀ distance ∈ stride, ExactStep low (part * (high - low)) distance

/-- The number that is part of the way between the bounds, taken down to the grid if there is a
step. -/
def meant (low high part : ℚ) : Option ℚ → ℚ
  | none => low + part * (high - low)
  | some distance => low + ⌊part * (high - low) / distance⌋ * distance

/-- The numbers of a range: from the lower bound up and below the upper one, and on the grid of the
step if there is one. -/
def Within (low high : ℚ) (stride : Option ℚ) (value : ℚ) : Prop :=
  low ≤ value ∧ value < high ∧ ∀ distance ∈ stride, ∃ place : Nat, value = low + place * distance

/-- How many decimal places the texts have: those of the step, or two. -/
inductive Places : Value → Nat → Prop where
  | none : Places .null 2
  | some {step : Value} {number : Number} {count : Nat} (given : step.number? = some number)
      (counted : places number = .ok count) : Places step count

variable {low high part : ℚ} {stride : Option ℚ}

/-- The number meant is a number of the range. -/
theorem within_meant (wide : low < high) (nonneg : 0 ≤ part) (below : part < 1)
    (positive : ∀ distance ∈ stride, 0 < distance) :
    Within low high stride (meant low high part stride) := by
  have width_pos : 0 < high - low := sub_pos.mpr wide
  have offset_nonneg : 0 ≤ part * (high - low) := mul_nonneg nonneg width_pos.le
  have inside : low + part * (high - low) < high := by
    have less := mul_lt_mul_of_pos_right below width_pos
    linarith
  cases stride with
  | none => exact ⟨le_add_of_nonneg_right offset_nonneg, inside, nofun⟩
  | some distance =>
    have distance_pos := positive distance rfl
    obtain ⟨place, floor⟩ : ∃ place : Nat, ⌊part * (high - low) / distance⌋ = place :=
      Int.eq_ofNat_of_zero_le (Int.floor_nonneg.mpr (div_nonneg offset_nonneg distance_pos.le))
    have down : (place : ℚ) * distance ≤ part * (high - low) := by
      rw [← le_div_iff₀ distance_pos]
      exact_mod_cast floor ▸ Int.floor_le _
    rw [meant, floor, Int.cast_natCast]
    refine ⟨?_, ?_, ?_⟩
    · exact le_add_of_nonneg_right (by positivity)
    · linarith
    · rintro _ ⟨⟩
      exact ⟨place, rfl⟩

/-- A decimal nearest to a number of the range is such a number itself if the lower bound and the
step are decimals. -/
theorem within_of_nearest {places : Nat} {value decimal distance : ℚ}
    (nearest : NearestDecimal places value decimal)
    (within : Within low high (some distance) value) (lowDecimal : IsDecimal places low)
    (stepDecimal : IsDecimal places distance) : Within low high (some distance) decimal := by
  obtain ⟨place, same⟩ := within.2.2 distance rfl
  have exact : IsDecimal places value := by
    obtain ⟨lowUnits, lowSame⟩ := lowDecimal
    obtain ⟨units, stepSame⟩ := stepDecimal
    refine ⟨lowUnits + place * units, ?_⟩
    rw [same, add_mul, mul_assoc, lowSame, stepSame]
    push_cast
    rfl
  rwa [nearest.eq_iff.mpr exact]

/-! ### The steps of the rule -/

variable {bounds : Range}

theorem Measures.yields_width (measures : bounds.Measures low high stride)
    (exact : Exact low high part stride) : Yields bounds.width (high - low) := by
  obtain ⟨max, found, same⟩ := measures.max
  obtain ⟨min, found', same'⟩ := measures.min
  rw [width, found, found']
  exact yields_sub same same' exact.most exact.least exact.width

theorem Measures.yields_between (measures : bounds.Measures low high stride)
    (exact : Exact low high part stride) {width : Number} {fraction : Binary64}
    (wide : width.value? = some (high - low)) (drawn : fraction.value? = some part) :
    Yields (bounds.between width fraction) (low + part * (high - low)) := by
  obtain ⟨min, found, same⟩ := measures.min
  have drawn' : (Number.real fraction).value? = some part := drawn
  obtain ⟨offset, scaled, same'⟩ := yields_mul drawn' wide exact.isValue exact.width exact.offset
  rw [between, found, scaled]
  exact yields_add same same' exact.least exact.offset exact.sum

theorem Measures.yields_snap {distance : ℚ} (measures : bounds.Measures low high stride)
    (exact : Exact low high part stride) (present : distance ∈ stride) (positive : 0 < distance)
    (nonneg : 0 ≤ part * (high - low)) {step value : Number}
    (stepSame : step.value? = some distance)
    (valueSame : value.value? = some (low + part * (high - low))) :
    Yields (bounds.snap step value) (low + ⌊part * (high - low) / distance⌋ * distance) := by
  obtain ⟨min, found, same⟩ := measures.min
  have exactStep := exact.step distance present
  -- the distance from the lower bound is the offset again, so it needs no condition of its own
  have back : low + part * (high - low) - low = part * (high - low) := add_sub_cancel_left _ _
  obtain ⟨offset, apart, offsetSame⟩ := yields_sub valueSame same exact.sum exact.least
    (back.symm ▸ exact.offset)
  rw [back] at offsetSame
  obtain ⟨quotient, divided, quotientSame⟩ := div_of_isValue offsetSame stepSame exact.offset
    exactStep.isValue positive.ne' exactStep.quotient
  have floored := floor_real quotientSame
  have whole := exactStep.quotient.floor (div_nonneg nonneg positive.le)
  obtain ⟨product, scaled, productSame⟩ := @yields_mul (.int ⌊part * (high - low) / distance⌋) step
    _ _ rfl stepSame whole exactStep.isValue exactStep.product
  simp only [snap, found, apart, divided, floored, scaled, bind, Except.bind]
  exact yields_add same productSame exact.least exactStep.product exactStep.sum

/-- A positive step counts as present and compares as positive. -/
theorem stepIf_of_positive {step : Value} {number : Number} {distance : ℚ}
    (given : step.number? = some number) (same : number.value? = some distance)
    (positive : 0 < distance) :
    stepIf (fun order => order = some .gt) 0 step = .ok (some number) := by
  have present : step.truthy = true := by
    rw [Value.truthy_of_number? given, isZero_of_value? same positive.ne']
    rfl
  rw [stepIf, if_pos present, given]
  simp [compare?_zero_of_pos same positive]

/-- A step of a floating-point number's value has decimal places. -/
theorem exists_places {number : Number} {distance : ℚ} (same : number.value? = some distance)
    (exact : Binary64.IsValue distance) : ∃ count, places number = .ok count := by
  obtain ⟨converted, found, -⟩ := toBinary64_of_isValue same exact
  rw [places, found]
  simp only [bind, Except.bind]
  split
  · exact ⟨10, rfl⟩
  · exact ⟨_, rfl⟩

/-- The text is that of a decimal nearest to the number that is meant. -/
theorem fixedText_of_isValue {number : Number} {value : ℚ} (same : number.value? = some value)
    (exact : Binary64.IsValue value) (places : Nat) : ∃ text decimal,
      fixedText places number = .ok text ∧ Numeral.decimal? text.toList = some decimal ∧
        NearestDecimal places value decimal := by
  obtain ⟨converted, found, same'⟩ := toBinary64_of_isValue same exact
  obtain ⟨decimal, denotes, nearest⟩ := Binary64.nearestDecimal_fixed same' places
  refine ⟨_, decimal, ?_, denotes, nearest⟩
  rw [fixedText, found]
  rfl

theorem Measures.exists_realText (measures : bounds.Measures low high stride)
    (exact : Exact low high part stride) (nonneg : 0 ≤ part * (high - low)) {width : Number}
    {fraction : Binary64} (wide : width.value? = some (high - low))
    (drawn : fraction.value? = some part) : ∃ text places decimal,
      bounds.realText width fraction = .ok text ∧ Places bounds.step places ∧
        Numeral.decimal? text.toList = some decimal ∧
          NearestDecimal places (meant low high part stride) decimal := by
  obtain ⟨value, found, same⟩ := measures.yields_between exact wide drawn
  have step := measures.step
  rw [realText, found]
  generalize bounds.step = given at step
  cases step with
  | none =>
    obtain ⟨text, decimal, printed, denotes, nearest⟩ := fixedText_of_isValue same exact.sum 2
    exact ⟨text, 2, decimal, printed, .none, denotes, nearest⟩
  | @some _ number distance present stepSame positive =>
    have exactStep := exact.step distance rfl
    obtain ⟨snapped, taken, snappedSame⟩ := measures.yields_snap exact rfl positive nonneg stepSame
      same
    obtain ⟨count, counted⟩ := exists_places stepSame exactStep.isValue
    obtain ⟨text, decimal, printed, denotes, nearest⟩ :=
      fixedText_of_isValue snappedSame exactStep.sum count
    refine ⟨text, count, decimal, ?_, .some present counted, denotes, nearest⟩
    simp only [stepIf_of_positive present stepSame positive, taken, counted, printed, bind,
      Except.bind]

end Range

/-- A range of real numbers gives a text for every draw from zero up and below one. The text denotes
a decimal nearest to a number of the range, with the places of the step, or two. The decimal is that
number itself exactly if the number has no more places; it is a number of the range if the lower
bound and the step have no more places, and does not leave the bounds if these have no more. -/
theorem Rule.range_of_reals {ρ ω : Type} [Draws ρ] {bounds : Range} {low high part : ℚ}
    {stride : Option ℚ} (measures : bounds.Measures low high stride)
    (exact : Range.Exact low high part stride) (wide : low < high) (nonneg : 0 ≤ part)
    (below : part < 1) (context : Table String) (sources : Sources ρ ω)
    (drawn : (Draws.unit sources.generator).1.value? = some part) :
    let value := Range.meant low high part stride
    Range.Within low high stride value ∧
      ∃ text places decimal,
        (Rule.range bounds).pick context sources =
          (.ok text, { sources with generator := (Draws.unit sources.generator).2 }) ∧
        Range.Places bounds.step places ∧ Numeral.decimal? text.toList = some decimal ∧
        NearestDecimal places value decimal ∧ (decimal = value ↔ IsDecimal places value) ∧
        (IsDecimal places low → low ≤ decimal) ∧ (IsDecimal places high → decimal ≤ high) ∧
        ∀ distance ∈ stride, IsDecimal places low → IsDecimal places distance →
          Range.Within low high stride decimal := by
  intro value
  have within := Range.within_meant wide nonneg below measures.step.positive
  have offset_nonneg : 0 ≤ part * (high - low) := mul_nonneg nonneg (sub_pos.mpr wide).le
  obtain ⟨width, found, wideSame⟩ := measures.yields_width exact
  obtain ⟨text, places, decimal, printed, counted, denotes, nearest⟩ :=
    measures.exists_realText exact offset_nonneg wideSame drawn
  refine ⟨within, text, places, decimal, ?_, counted, denotes, nearest, nearest.eq_iff,
    fun exactly => nearest.ge exactly within.1, fun exactly => nearest.le exactly within.2.1.le, ?_⟩
  · show Pick.range bounds sources = _
    rw [Pick.range, if_pos measures.real, Effect.bind_apply, found]
    simp only [Pick.ofFault, Pick.ofOutcome, Effect.mapError_ok, Effect.bind_apply, Pick.unit,
      printed]
  · rintro distance ⟨⟩ lowDecimal stepDecimal
    exact Range.within_of_nearest nearest within lowDecimal stepDecimal

/-- A range of real numbers, made of exact values. -/
def Range.ofReals (low high : ℚ) (stride : Option ℚ) : Range :=
  ⟨.number (.real (.ofRat low)), .number (.real (.ofRat high)),
    (stride.map fun distance => .number (.real (.ofRat distance))).getD .null, true⟩

theorem Range.measures_ofReals {low high part : ℚ} {stride : Option ℚ}
    (exact : Exact low high part stride) (positive : ∀ distance ∈ stride, 0 < distance) :
    (ofReals low high stride).Measures low high stride := by
  refine ⟨rfl, ⟨_, rfl, Binary64.value?_ofRat exact.least⟩,
    ⟨_, rfl, Binary64.value?_ofRat exact.most⟩, ?_⟩
  cases stride with
  | none => exact .none
  | some distance =>
    have given := (exact.step distance rfl).isValue
    exact .some rfl (Binary64.value?_ofRat given) (positive distance rfl)

/-- A draw of 13/16 between one and three stands for 2.625, which is taken down to 2.5. -/
theorem exact_halves : Range.Exact 1 3 (13 / 16) (some (1 / 2)) := by
  have floor : ⌊(13 / 16 * (3 - 1) / (1 / 2) : ℚ)⌋ = 3 := by
    rw [Int.floor_eq_iff]
    norm_num
  constructor
  · exact .of_eq_div 13 4 (by norm_num)
  · exact .of_eq_div 1 0 (by norm_num)
  · exact .of_eq_div 3 0 (by norm_num)
  · exact .of_eq_div 2 0 (by norm_num)
  · exact .of_eq_div 13 3 (by norm_num)
  · exact .of_eq_div 21 3 (by norm_num)
  · rintro distance ⟨⟩
    constructor
    · exact .of_eq_div 1 1 (by norm_num)
    · exact .of_eq_div 13 2 (by norm_num)
    · rw [floor]
      exact .of_eq_div 3 1 (by norm_num)
    · rw [floor]
      exact .of_eq_div 5 1 (by norm_num)

theorem halves_between_one_and_three :
    let bounds := Range.ofReals 1 3 (some (1 / 2))
    let sources : Sources Script Unit := ⟨⟨[.real (.ofRat (13 / 16))], []⟩, (), []⟩
    bounds.Measures 1 3 (some (1 / 2)) ∧ Range.Exact 1 3 (13 / 16) (some (1 / 2)) ∧
      (Draws.unit sources.generator).1.value? = some (13 / 16) ∧
      ∃ text later decimal, (Rule.range bounds).pick .empty sources = (.ok text, later) ∧
        Numeral.decimal? text.toList = some decimal ∧
        Range.Within 1 3 (some (1 / 2)) decimal := by
  intro bounds sources
  have measures : bounds.Measures 1 3 (some (1 / 2)) :=
    Range.measures_ofReals exact_halves (by rintro _ ⟨⟩; norm_num)
  have drawn : (Draws.unit sources.generator).1.value? = some (13 / 16) :=
    Binary64.value?_ofRat exact_halves.isValue
  obtain ⟨-, text, places, decimal, picked, counted, denotes, -, -, -, -, snapped⟩ :=
    Rule.range_of_reals measures exact_halves (by norm_num) (by norm_num) (by norm_num) .empty
      sources drawn
  have one : places = 1 := by
    cases counted with
    | some given counted =>
      obtain rfl : Number.real (.ofRat (1 / 2)) = _ := Option.some.inj given
      have found : Range.places (.real (.ofRat (1 / 2))) = .ok 1 := by decide +kernel
      exact Except.ok.inj (counted.symm.trans found)
  subst one
  refine ⟨measures, exact_halves, drawn, text, _, decimal, picked, denotes, ?_⟩
  exact snapped _ rfl ⟨10, by norm_num⟩ ⟨5, by norm_num⟩

theorem exact_quarter : Range.Exact (1 / 4) 10 0 (some (1 / 2)) := by
  have floor : ⌊(0 * (10 - 1 / 4) / (1 / 2) : ℚ)⌋ = 0 := by
    rw [Int.floor_eq_iff]
    norm_num
  constructor
  · exact .of_eq_div 0 0 (by norm_num)
  · exact .of_eq_div 1 2 (by norm_num)
  · exact .of_eq_div 10 0 (by norm_num)
  · exact .of_eq_div 39 2 (by norm_num)
  · exact .of_eq_div 0 0 (by norm_num)
  · exact .of_eq_div 1 2 (by norm_num)
  · rintro distance ⟨⟩
    constructor
    · exact .of_eq_div 1 1 (by norm_num)
    · exact .of_eq_div 0 0 (by norm_num)
    · rw [floor]
      exact .of_eq_div 0 0 (by norm_num)
    · rw [floor]
      exact .of_eq_div 1 2 (by norm_num)

theorem exact_below_one : Range.Exact 0 1 (1023 / 1024) none := by
  constructor
  · exact .of_eq_div 1023 10 (by norm_num)
  · exact .of_eq_div 0 0 (by norm_num)
  · exact .of_eq_div 1 0 (by norm_num)
  · exact .of_eq_div 1 0 (by norm_num)
  · exact .of_eq_div 1023 10 (by norm_num)
  · exact .of_eq_div 1023 10 (by norm_num)
  · exact nofun

/-- A lower bound with more places than the step is rounded out of the range; so is a number that is
close to the upper bound. -/
theorem rounded_out_of_range :
    let sources (draw : ℚ) : Sources Script Unit := ⟨⟨[.real (.ofRat draw)], []⟩, (), []⟩
    let quarters := Range.ofReals (1 / 4) 10 (some (1 / 2))
    let unit := Range.ofReals 0 1 none
    (quarters.Measures (1 / 4) 10 (some (1 / 2)) ∧ Range.Exact (1 / 4) 10 0 (some (1 / 2)) ∧
      ((Rule.range quarters).pick .empty (sources 0)).1 = .ok "0.2" ∧
      Numeral.decimal? "0.2".toList = some (1 / 5) ∧
      ¬ Range.Within (1 / 4) 10 (some (1 / 2)) (1 / 5)) ∧
    unit.Measures 0 1 none ∧ Range.Exact 0 1 (1023 / 1024) none ∧
      ((Rule.range unit).pick .empty (sources (1023 / 1024))).1 = .ok "1.00" ∧
      Numeral.decimal? "1.00".toList = some 1 ∧ ¬ Range.Within 0 1 none 1 := by
  intro sources quarters unit
  refine ⟨⟨?_, exact_quarter, by decide +kernel, by decide +kernel, ?_⟩, ?_, exact_below_one,
    by decide +kernel, by decide +kernel, ?_⟩
  · refine Range.measures_ofReals exact_quarter ?_
    rintro _ ⟨⟩
    norm_num
  · rintro ⟨least, -⟩
    norm_num at least
  · exact Range.measures_ofReals exact_below_one nofun
  · rintro ⟨-, less, -⟩
    exact lt_irrefl _ less

end TextGrammar
