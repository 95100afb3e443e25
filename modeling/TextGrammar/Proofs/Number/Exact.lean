import TextGrammar.Number.Basic
import TextGrammar.Proofs.Number.Overflow
import TextGrammar.Value.Basic

/-!
Exact arithmetic. Main statement: an operation on numbers whose exact result is the value of a
floating-point number gives a number of that value.
-/

namespace TextGrammar

namespace Binary64

/-- The exact value of a finite number. -/
def value? : Binary64 → Option ℚ
  | finite negative significand exponent => some (finite negative significand exponent).toRat
  | _ => none

/-- The rationals that finite numbers have as values. -/
def IsValue (value : ℚ) : Prop :=
  ∃ (significand : ℕ) (exponent : ℤ), significand < 2 ^ 53 ∧ minExponent ≤ exponent ∧
    exponent ≤ maxExponent ∧ |value| = significand * 2 ^ exponent

theorem toRat_finite (negative : Bool) (significand : ℕ) (exponent : ℤ) :
    (finite negative significand exponent).toRat =
      if negative then -((significand : ℚ) * 2 ^ exponent) else significand * 2 ^ exponent := by
  rw [toRat, pow2_eq_zpow]

theorem exists_finite {number : Binary64} {value : ℚ} (same : number.value? = some value) :
    ∃ negative significand exponent, number = finite negative significand exponent ∧
      (finite negative significand exponent).toRat = value := by
  cases number with
  | finite negative significand exponent => exact ⟨_, _, _, rfl, Option.some.inj same⟩
  | infinity negative => cases same
  | nan => cases same

/-- The sign of a number whose value is not zero is that of its value. -/
theorem isNegative_eq {number : Binary64} {value : ℚ} (same : number.value? = some value)
    (nonzero : value ≠ 0) : number.isNegative = decide (value < 0) := by
  obtain ⟨negative, significand, exponent, rfl, rfl⟩ := exists_finite same
  rw [toRat_finite] at nonzero ⊢
  have nonneg : (0 : ℚ) ≤ significand * 2 ^ exponent := by positivity
  cases negative with
  | true =>
    have some : (significand : ℚ) * 2 ^ exponent ≠ 0 := neg_ne_zero.mp nonzero
    have below := neg_neg_of_pos (nonneg.lt_of_ne' some)
    simp only [if_true, isNegative, below, decide_true]
  | false => simpa [isNegative] using nonneg

section

variable {num den : Nat} (nonzero : num ≠ 0) (positive : 0 < den) {significand : ℕ} {exponent : ℤ}
  (small : significand < 2 ^ 53)
  (exact : (num : ℚ) / den = significand * 2 ^ exponent)

include nonzero positive small exact

theorem ofQuotient_ne_infinity_of_exact (most : exponent ≤ maxExponent) (negative other : Bool) :
    ofQuotient negative num den ≠ infinity other := by
  intro infinite
  obtain ⟨-, reached⟩ := (ofQuotient_eq_infinity_iff_overflow nonzero positive _ _).mp infinite
  have high := (overflow_mul_le_iff positive).mp reached
  have unit : (2 : ℚ) ^ maxExponent = 2 * 2 ^ 970 := by
    rw [show maxExponent = ((970 + 1 : ℕ) : ℤ) from rfl, zpow_natCast, pow_succ']
  have half_pos : (0 : ℚ) < 2 ^ 970 := by positivity
  have places : (significand : ℚ) ≤ 2 ^ 53 - 1 := by
    have whole : (significand : ℚ) + 1 ≤ 2 ^ 53 := by exact_mod_cast small
    linarith only [whole]
  have low : (num : ℚ) / den ≤ (2 ^ 53 - 1) * (2 * 2 ^ 970) := by
    rw [exact, ← unit]
    exact mul_le_mul places (zpow_le_zpow_right₀ one_le_two most) (by positivity) (by norm_num)
  generalize (2 : ℚ) ^ 970 = half at *
  linarith only [high, low, half_pos]

/-- A number's value is a whole number of units of its last place. -/
theorem significandAt_lastPlace_of_exact (least : minExponent ≤ exponent) :
    (significandAt num den (lastPlace num den) : ℚ) * 2 ^ lastPlace num den = num / den := by
  obtain ⟨-, reached⟩ := lastPlace_spec nonzero positive
  have low : lastPlace num den ≤ exponent := by
    -- above its exponent the value would need more bits than the significand has
    by_contra high
    have above := reached (least.trans_lt (not_le.mp high))
    have below : (significand : ℚ) * 2 ^ exponent < 2 ^ (53 + exponent) := by
      rw [zpow_add₀ two_ne_zero]
      refine mul_lt_mul_of_pos_right ?_ (by positivity)
      exact_mod_cast small
    have places := (zpow_lt_zpow_iff_right₀ one_lt_two).mp ((exact ▸ above).trans_lt below)
    omega
  obtain ⟨count, apart⟩ := Int.eq_ofNat_of_zero_le (sub_nonneg.mpr low)
  have whole : (num : ℚ) / den = ((significand * 2 ^ count : ℕ) : ℚ) * 2 ^ lastPlace num den := by
    rw [exact, eq_add_of_sub_eq apart, zpow_add₀ two_ne_zero, zpow_natCast]
    push_cast
    ring
  rw [significandAt_eq positive whole, whole]

end

/-- A quotient that is the value of a number is rounded to a number of this value. -/
theorem value?_ofQuotient {num den : Nat} (positive : 0 < den) {value : ℚ} {negative : Bool}
    (exact : IsValue value) (magnitude : |value| = num / den)
    (sign : value ≠ 0 → (negative = true ↔ value < 0)) :
    (ofQuotient negative num den).value? = some value := by
  have den_pos : (den : ℚ) ≠ 0 := by exact_mod_cast positive.ne'
  by_cases zero : value = 0
  · have none : num = 0 := by
      have vanishes : (num : ℚ) / den = 0 := by rw [← magnitude, zero, abs_zero]
      exact_mod_cast (div_eq_zero_iff.mp vanishes).resolve_right den_pos
    rw [ofQuotient, if_pos none, Binary64.zero, value?, toRat_finite, zero]
    simp
  · have nonzero : num ≠ 0 := by
      rintro rfl
      rw [Nat.cast_zero, zero_div, abs_eq_zero] at magnitude
      exact zero magnitude
    obtain ⟨significand, exponent, small, least, most, same⟩ := exact
    rw [magnitude] at same
    have bounded := ofQuotient_ne_infinity_of_exact nonzero positive small same most negative
      negative
    obtain ⟨_, _, finite⟩ := ofQuotient_finite_of_ne bounded
    have exactly := toRat_ofQuotient_signed nonzero bounded
    rw [significandAt_lastPlace_of_exact nonzero positive small same least, ← magnitude] at exactly
    rw [finite] at exactly ⊢
    rw [value?, exactly]
    cases negative with
    | true =>
      have below := (sign zero).mp rfl
      simp [abs_of_neg below]
    | false =>
      have above : ¬ value < 0 := fun below => Bool.noConfusion ((sign zero).mpr below)
      simp [abs_of_nonneg (not_lt.mp above)]

theorem abs_eq_natAbs_div (value : ℚ) : |value| = (value.num.natAbs : ℚ) / value.den := by
  rw [Rat.abs_def, Rat.divInt_eq_div, Int.cast_natCast, Int.cast_natCast]

variable {x y : Binary64} {p q : ℚ}

theorem value?_ofRat (exact : IsValue p) : (ofRat p).value? = some p := by
  refine value?_ofQuotient p.den_pos exact (abs_eq_natAbs_div p) fun _ => ?_
  rw [decide_eq_true_eq, Rat.num_neg]

theorem value?_neg (left : x.value? = some p) : (neg x).value? = some (-p) := by
  obtain ⟨negative, significand, exponent, rfl, rfl⟩ := exists_finite left
  rw [neg, value?, toRat_finite, toRat_finite]
  cases negative <;> simp

/-- The signs of two numbers differ. -/
theorem bne_iff (first : p ≠ 0) (second : q ≠ 0) :
    (decide (p < 0) != decide (q < 0)) = true ↔ 0 < p ∧ q < 0 ∨ p < 0 ∧ 0 < q := by
  rcases lt_or_gt_of_ne first with below | above
  · rcases lt_or_gt_of_ne second with below' | above'
    · simp [below, below', below.not_gt, below'.not_gt]
    · simp [below, above', below.not_gt, above'.not_gt]
  · rcases lt_or_gt_of_ne second with below' | above'
    · simp [above, below', above.not_gt, below'.not_gt]
    · simp [above, above', above.not_gt, above'.not_gt]

/-! ### Operations -/

section

variable (left : x.value? = some p) (right : y.value? = some q)

include left right

theorem value?_add (exact : IsValue (p + q)) : (add x y).value? = some (p + q) := by
  obtain ⟨s, m, d, rfl, rfl⟩ := exists_finite left
  obtain ⟨t, n, e, rfl, rfl⟩ := exists_finite right
  rw [add]
  by_cases none : (finite s m d).toRat + (finite t n e).toRat = 0
  · rw [if_pos none, none, zero, value?, toRat_finite]
    simp
  · rw [if_neg none]
    exact value?_ofRat exact

theorem value?_sub (exact : IsValue (p - q)) : (sub x y).value? = some (p - q) := by
  rw [sub, sub_eq_add_neg] at *
  exact value?_add left (value?_neg right) exact

theorem value?_mul (exact : IsValue (p * q)) : (mul x y).value? = some (p * q) := by
  have sign (nonzero : p * q ≠ 0) : (x.isNegative != y.isNegative) = true ↔ p * q < 0 := by
    obtain ⟨first, second⟩ := mul_ne_zero_iff.mp nonzero
    rw [isNegative_eq left first, isNegative_eq right second, bne_iff first second, mul_neg_iff]
  obtain ⟨s, m, d, rfl, rfl⟩ := exists_finite left
  obtain ⟨t, n, e, rfl, rfl⟩ := exists_finite right
  exact value?_ofQuotient (Rat.den_pos _) exact (abs_eq_natAbs_div _) sign

theorem value?_div (nonzero : q ≠ 0) (exact : IsValue (p / q)) :
    (div x y).value? = some (p / q) := by
  have sign (some : p / q ≠ 0) : (x.isNegative != y.isNegative) = true ↔ p / q < 0 := by
    have first := (div_ne_zero_iff.mp some).1
    rw [isNegative_eq left first, isNegative_eq right nonzero, bne_iff first nonzero, div_neg_iff]
  obtain ⟨s, m, d, rfl, rfl⟩ := exists_finite left
  obtain ⟨t, n, e, rfl, rfl⟩ := exists_finite right
  have some : n ≠ 0 := by
    rintro rfl
    simp [toRat_finite] at nonzero
  rw [div, if_neg some]
  exact value?_ofQuotient (Rat.den_pos _) exact (abs_eq_natAbs_div _) sign

end

/-! ### Values -/

/-- Fractions of at most 53 bits over a power of two are values. -/
theorem IsValue.of_eq_div {value : ℚ} (num : Int) (places : Nat) (same : value = num / 2 ^ places)
    (small : num.natAbs < 2 ^ 53 := by decide) (few : places ≤ 1074 := by decide) :
    IsValue value := by
  refine ⟨num.natAbs, -places, small, ?_, ?_, ?_⟩
  · rw [minExponent]
    omega
  · rw [maxExponent]
    omega
  · rw [same, abs_div, abs_of_pos (by positivity : (0 : ℚ) < 2 ^ places), zpow_neg, zpow_natCast,
      div_eq_mul_inv, Nat.cast_natAbs, Int.cast_abs]

theorem isValue_intCast {value : Int} (small : value.natAbs < 2 ^ 53) : IsValue (value : ℚ) :=
  .of_eq_div value 0 (by rw [pow_zero, div_one]) small

/-- The integer below a value is a value. -/
theorem IsValue.floor (exact : IsValue p) (nonneg : 0 ≤ p) : IsValue (⌊p⌋ : ℚ) := by
  obtain ⟨significand, exponent, small, least, most, same⟩ := exact
  rw [abs_of_nonneg nonneg] at same
  by_cases whole : 0 ≤ exponent
  · obtain ⟨power, rfl⟩ := Int.eq_ofNat_of_zero_le whole
    have integer : p = ((significand * 2 ^ power : ℕ) : ℤ) := by
      rw [same, zpow_natCast]
      push_cast
      rfl
    rw [integer, Int.floor_intCast, ← integer]
    exact ⟨significand, power, small, least, most, by rw [abs_of_nonneg nonneg, same]⟩
  · refine isValue_intCast ?_
    have unit : (2 : ℚ) ^ exponent ≤ 1 := zpow_le_one_of_nonpos₀ one_le_two (not_le.mp whole).le
    have below : p ≤ significand := by
      rw [same]
      exact mul_le_of_le_one_right (by positivity) unit
    have floor : ⌊p⌋ ≤ significand := by
      exact_mod_cast (Int.floor_le p).trans below
    have floor_nonneg : 0 ≤ ⌊p⌋ := Int.floor_nonneg.mpr nonneg
    omega

end Binary64

namespace Number

/-- The exact value of a finite number. -/
def value? : Number → Option ℚ
  | int value => some value
  | real value => value.value?

/-- A step gives a number of this value. -/
def Yields (outcome : Except Fault Number) (value : ℚ) : Prop :=
  ∃ number, outcome = .ok number ∧ number.value? = some value

variable {x y : Number} {p q : ℚ}

/-- A number of a floating-point number's value is converted to a number of this value. -/
theorem toBinary64_of_isValue (same : x.value? = some p) (exact : Binary64.IsValue p) :
    ∃ number, x.toBinary64 = .ok number ∧ number.value? = some p := by
  cases x with
  | real value => exact ⟨value, rfl, same⟩
  | int value =>
    obtain rfl : (value : ℚ) = p := Option.some.inj same
    have magnitude : |(value : ℚ)| = (value.natAbs : ℚ) / (1 : ℕ) := by
      rw [Nat.cast_one, div_one, Nat.cast_natAbs, Int.cast_abs]
    have sign (_ : (value : ℚ) ≠ 0) : decide (value < 0) = true ↔ (value : ℚ) < 0 := by simp
    have nearest := Binary64.value?_ofQuotient Nat.one_pos exact magnitude sign
    obtain ⟨_, _, _, finite, -⟩ := Binary64.exists_finite nearest
    rw [finite] at nearest
    rw [toBinary64, Binary64.ofInt?, finite]
    exact ⟨_, rfl, nearest⟩

section

variable (left : x.value? = some p) (right : y.value? = some q)
  (leftExact : Binary64.IsValue p) (rightExact : Binary64.IsValue q)

include left right leftExact rightExact

/-- An operation yields a value if it does so between integers and between floating-point
numbers. -/
theorem yields_lift {whole : Int → Int → Int} {rounded : Binary64 → Binary64 → Binary64} {value : ℚ}
    (wholly : ∀ a b : Int, p = a → q = b → (whole a b : ℚ) = value)
    (roundly : ∀ a b : Binary64, a.value? = some p → b.value? = some q →
      (rounded a b).value? = some value) : Yields (lift whole rounded x y) value := by
  obtain ⟨first, converted, same⟩ := toBinary64_of_isValue left leftExact
  obtain ⟨second, converted', same'⟩ := toBinary64_of_isValue right rightExact
  have general : Yields (do
      let x ← x.toBinary64
      let y ← y.toBinary64
      return real (rounded x y)) value := by
    rw [converted, converted']
    exact ⟨_, rfl, roundly first second same same'⟩
  cases x with
  | real _ => exact general
  | int a =>
    cases y with
    | real _ => exact general
    | int b =>
      have first : p = a := (Option.some.inj left).symm
      have second : q = b := (Option.some.inj right).symm
      exact ⟨_, rfl, congrArg some (wholly a b first second)⟩

theorem yields_add (exact : Binary64.IsValue (p + q)) : Yields (add x y) (p + q) := by
  refine yields_lift left right leftExact rightExact ?_ ?_
  · rintro a b rfl rfl
    exact Int.cast_add a b
  · intro a b first second
    exact Binary64.value?_add first second exact

theorem yields_sub (exact : Binary64.IsValue (p - q)) : Yields (sub x y) (p - q) := by
  refine yields_lift left right leftExact rightExact ?_ ?_
  · rintro a b rfl rfl
    exact Int.cast_sub a b
  · intro a b first second
    exact Binary64.value?_sub first second exact

theorem yields_mul (exact : Binary64.IsValue (p * q)) : Yields (mul x y) (p * q) := by
  refine yields_lift left right leftExact rightExact ?_ ?_
  · rintro a b rfl rfl
    exact Int.cast_mul a b
  · intro a b first second
    exact Binary64.value?_mul first second exact

/-- The quotient is a floating-point number even of integers. -/
theorem div_of_isValue (nonzero : q ≠ 0) (exact : Binary64.IsValue (p / q)) :
    ∃ quotient, div x y = .ok quotient ∧ quotient.value? = some (p / q) := by
  obtain ⟨first, converted, same⟩ := toBinary64_of_isValue left leftExact
  obtain ⟨second, converted', same'⟩ := toBinary64_of_isValue right rightExact
  have general : ∃ quotient, (do
      let x ← x.toBinary64
      let y ← y.toBinary64
      return Binary64.div x y) = Except.ok (ε := Fault) quotient ∧
        quotient.value? = some (p / q) := by
    rw [converted, converted']
    exact ⟨_, rfl, Binary64.value?_div same same' nonzero exact⟩
  cases x with
  | real _ => exact general
  | int a =>
    cases y with
    | real _ => exact general
    | int b =>
      obtain rfl : (a : ℚ) = p := Option.some.inj left
      obtain rfl : (b : ℚ) = q := Option.some.inj right
      have positive : 0 < b.natAbs := Int.natAbs_pos.mpr (by exact_mod_cast nonzero)
      have magnitude : |(a : ℚ) / b| = (a.natAbs : ℚ) / b.natAbs := by
        rw [abs_div, Nat.cast_natAbs, Nat.cast_natAbs, Int.cast_abs, Int.cast_abs]
      have sign (some : (a : ℚ) / b ≠ 0) :
          (decide (a < 0) != decide (b < 0)) = true ↔ (a : ℚ) / b < 0 := by
        have first := (div_ne_zero_iff.mp some).1
        rw [div_neg_iff, ← Binary64.bne_iff first nonzero]
        simp only [Int.cast_lt_zero]
      have nearest := Binary64.value?_ofQuotient positive exact magnitude sign
      obtain ⟨_, _, _, finite, -⟩ := Binary64.exists_finite nearest
      rw [finite] at nearest
      rw [div, finite]
      exact ⟨_, rfl, nearest⟩

end

/-- The integer below a floating-point number is that below its value. -/
theorem floor_real {number : Binary64} (same : number.value? = some p) :
    (real number).floor = .ok ⌊p⌋ := by
  obtain ⟨_, _, _, rfl, rfl⟩ := Binary64.exists_finite same
  rfl

theorem isZero_of_value? (same : x.value? = some p) (nonzero : p ≠ 0) : x.isZero = false := by
  cases x with
  | int value =>
    obtain rfl : (value : ℚ) = p := Option.some.inj same
    have some : value ≠ 0 := by exact_mod_cast nonzero
    simp [isZero, some]
  | real number =>
    obtain ⟨negative, significand, exponent, rfl, rfl⟩ := Binary64.exists_finite same
    have some : significand ≠ 0 := by
      rintro rfl
      simp [Binary64.toRat_finite] at nonzero
    simp [isZero, Binary64.isZero, some]

theorem compare?_zero_of_pos (same : x.value? = some p) (positive : 0 < p) :
    compare? x (.int 0) = some .gt := by
  cases x with
  | int value =>
    obtain rfl : (value : ℚ) = p := Option.some.inj same
    have some : 0 < value := by exact_mod_cast positive
    simp [compare?, compare_gt_iff_gt.mpr some]
  | real number =>
    obtain ⟨negative, significand, exponent, rfl, rfl⟩ := Binary64.exists_finite same
    simp [compare?, Binary64.compareRat, positive.not_gt, positive.ne']

end Number

/-- A value that counts as a number is present unless it is zero. -/
theorem Value.truthy_of_number? {value : Value} {number : Number}
    (given : value.number? = some number) : value.truthy = !number.isZero := by
  cases value with
  | list items => cases given
  | map entries => cases given
  | scalar value =>
    cases value with
    | null | str | stamp | binary => cases given
    | number value =>
      obtain rfl : value = number := Option.some.inj given
      rfl
    | bool value =>
      obtain rfl : Number.int value.toNat = number := Option.some.inj given
      cases value <;> rfl

end TextGrammar
