import Mathlib.Algebra.Order.Field.Power
import Mathlib.Data.Rat.Floor
import Mathlib.Tactic.FieldSimp
import Mathlib.Tactic.Linarith
import Mathlib.Tactic.NormNum
import Mathlib.Tactic.Positivity
import Mathlib.Tactic.Ring
import TextGrammar.Number.Binary64

/-!
The floating-point number nearest to a quotient, over the rationals. Main statements: the last place
of a quotient is the one at which it takes 53 bits, or the least one; the nearest number is the
nearest whole number of units of that place; and it is infinite exactly from the middle on between
the greatest number and the power of two above it.
-/

namespace TextGrammar

/-! ### Rounding -/

section

variable {num den : Nat} (positive : 0 < den)

include positive

theorem abs_roundHalfEven_sub_le : |(roundHalfEven num den : ℚ) - num / den| ≤ 1 / 2 := by
  obtain ⟨above, below⟩ := roundHalfEven_near num den positive
  have den_pos : (0 : ℚ) < den := by exact_mod_cast positive
  have above' : 2 * ((roundHalfEven num den : ℚ) * den) ≤ 2 * num + den := by exact_mod_cast above
  have below' : 2 * (num : ℚ) ≤ 2 * ((roundHalfEven num den : ℚ) * den) + den := by
    exact_mod_cast below
  have scaled : ((roundHalfEven num den : ℚ) - num / den) * den =
      roundHalfEven num den * den - num := by
    field_simp
  refine abs_le.mpr ⟨?_, ?_⟩
  · refine le_of_mul_le_mul_right ?_ den_pos
    rw [scaled]
    linarith
  · refine le_of_mul_le_mul_right ?_ den_pos
    rw [scaled]
    linarith

/-- Only an even number is rounded to from as far as half a unit above it. -/
theorem two_mul_lt_of_odd (odd : roundHalfEven num den % 2 = 1) :
    2 * num < (2 * roundHalfEven num den + 1) * den := by
  have whole : den * (num / den) + num % den = num := Nat.div_add_mod num den
  have small : num % den < den := Nat.mod_lt num positive
  have scaled (quotient : Nat) :
      (2 * quotient + 1) * den = 2 * (den * quotient) + den := by ring
  simp only [roundHalfEven] at odd ⊢
  rw [scaled]
  split at odd
  · rw [if_pos ‹_›]
    omega
  · split at odd
    · rw [if_neg ‹_›, if_pos ‹_›, Nat.mul_add]
      omega
    · omega

theorem roundHalfEven_le {bound : Nat} (below : (num : ℚ) / den ≤ bound) :
    roundHalfEven num den ≤ bound := by
  refine Nat.le_of_not_lt fun above => ?_
  have near := (roundHalfEven_near num den positive).1
  have den_pos : (0 : ℚ) < den := by exact_mod_cast positive
  have whole : num ≤ bound * den := by exact_mod_cast (div_le_iff₀ den_pos).mp below
  have more : (bound + 1) * den ≤ roundHalfEven num den * den := Nat.mul_le_mul_right den above
  rw [Nat.succ_mul] at more
  omega

theorem roundHalfEven_eq {whole : Nat} (exact : (num : ℚ) / den = whole) :
    roundHalfEven num den = whole := by
  have near : |(roundHalfEven num den : ℚ) - num / den| ≤ 1 / 2 :=
    abs_roundHalfEven_sub_le positive
  rw [exact] at near
  have close : |((roundHalfEven num den : ℤ) - whole : ℚ)| < 1 := by
    push_cast
    linarith
  have same : (roundHalfEven num den : ℤ) - whole = 0 :=
    Int.abs_lt_one_iff.mp (by exact_mod_cast close)
  omega

end

namespace Binary64

/-! ### Places -/

theorem pow2_eq_zpow (exponent : Int) : pow2 exponent = (2 : ℚ) ^ exponent := by
  rw [pow2]
  split
  · rename_i nonnegative
    obtain ⟨power, rfl⟩ := Int.eq_ofNat_of_zero_le nonnegative
    show ((2 ^ power : ℕ) : ℚ) = _
    simp
  · rename_i negative
    obtain ⟨power, rfl⟩ := Int.eq_negSucc_of_lt_zero (not_le.mp negative)
    show mkRat 1 (2 ^ (power + 1)) = _
    rw [Rat.mkRat_eq_div, zpow_negSucc]
    simp

variable {num den : Nat}

theorem below_iff (positive : 0 < den) (exponent : Int) :
    below num den exponent = true ↔ (num : ℚ) / den < 2 ^ exponent := by
  have den_pos : (0 : ℚ) < den := by exact_mod_cast positive
  rw [below, div_lt_iff₀ den_pos]
  split
  · rename_i nonnegative
    obtain ⟨power, rfl⟩ := Int.eq_ofNat_of_zero_le nonnegative
    show decide (num < den * 2 ^ power) = true ↔ _
    rw [decide_eq_true_eq, zpow_natCast, mul_comm]
    exact_mod_cast Iff.rfl
  · rename_i negative
    obtain ⟨power, rfl⟩ := Int.eq_negSucc_of_lt_zero (not_le.mp negative)
    show decide (num * 2 ^ (power + 1) < den) = true ↔ _
    rw [decide_eq_true_eq, zpow_negSucc, ← div_eq_inv_mul, lt_div_iff₀ (by positivity)]
    exact_mod_cast Iff.rfl

/-- At its last place a quotient takes 53 bits, unless this place is the least one, at which it may
take fewer. -/
theorem lastPlace_spec (nonzero : num ≠ 0) (positive : 0 < den) :
    (num : ℚ) / den < 2 ^ (lastPlace num den + 53) ∧
      (minExponent < lastPlace num den → (2 : ℚ) ^ (lastPlace num den + 52) ≤ num / den) := by
  have num_pos : (0 : ℚ) < num := by exact_mod_cast Nat.pos_of_ne_zero nonzero
  have den_pos : (0 : ℚ) < den := by exact_mod_cast positive
  have numLeast : (2 : ℚ) ^ num.log2 ≤ num := by exact_mod_cast Nat.log2_self_le nonzero
  have numMost : (num : ℚ) < 2 ^ (num.log2 + 1) := by exact_mod_cast Nat.lt_log2_self
  have denLeast : (2 : ℚ) ^ den.log2 ≤ den := by exact_mod_cast Nat.log2_self_le positive.ne'
  have denMost : (den : ℚ) < 2 ^ (den.log2 + 1) := by exact_mod_cast Nat.lt_log2_self
  let estimate : Int := (num.log2 : Int) - den.log2 - 53
  have least : (2 : ℚ) ^ (estimate + 52) ≤ num / den := by
    rw [le_div_iff₀ den_pos]
    calc (2 : ℚ) ^ (estimate + 52) * den
        ≤ 2 ^ (estimate + 52) * 2 ^ (den.log2 + 1) := by gcongr
      _ = 2 ^ num.log2 := by
        rw [← zpow_natCast, ← zpow_add₀ two_ne_zero, ← zpow_natCast]
        congr 1
        simp only [estimate]
        push_cast
        ring
      _ ≤ num := numLeast
  have most : (num : ℚ) / den < 2 ^ (estimate + 54) := by
    rw [div_lt_iff₀ den_pos]
    calc (num : ℚ) < 2 ^ (num.log2 + 1) := numMost
      _ = 2 ^ (estimate + 54) * 2 ^ den.log2 := by
        rw [← zpow_natCast, ← zpow_natCast, ← zpow_add₀ two_ne_zero]
        congr 1
        simp only [estimate]
        push_cast
        ring
      _ ≤ 2 ^ (estimate + 54) * den := by gcongr
  have place : lastPlace num den =
      max (if below num den (estimate + 53) then estimate else estimate + 1) minExponent := rfl
  rw [place]
  generalize chosen : (if below num den (estimate + 53) then estimate else estimate + 1) = exact
  have bounds : (num : ℚ) / den < 2 ^ (exact + 53) ∧ (2 : ℚ) ^ (exact + 52) ≤ num / den := by
    by_cases less : below num den (estimate + 53) = true
    · rw [if_pos less] at chosen
      subst chosen
      exact ⟨(below_iff positive _).mp less, least⟩
    · rw [if_neg less] at chosen
      subst chosen
      have more : ¬ (num : ℚ) / den < 2 ^ (estimate + 53) := mt (below_iff positive _).mpr less
      refine ⟨?_, ?_⟩
      · rwa [add_assoc]
      · rw [add_assoc]
        exact not_lt.mp more
  constructor
  · refine bounds.1.trans_le (zpow_le_zpow_right₀ one_le_two ?_)
    omega
  · intro above
    rw [max_eq_left (by omega)]
    exact bounds.2

/-! ### Significands -/

/-- The nearest whole number of units of a place. -/
def significandAt (num den : Nat) (place : Int) : Nat :=
  if 0 ≤ place then roundHalfEven num (den * Nat.pow 2 place.toNat)
  else roundHalfEven (num * Nat.pow 2 (-place).toNat) den

section

variable {place : Int} (positive : 0 < den)

include positive

/-- It is a quotient of natural numbers that is rounded. -/
theorem exists_significandAt (num : Nat) (place : Int) : ∃ part unit, 0 < unit ∧
    significandAt num den place = roundHalfEven part unit ∧
      (part : ℚ) / unit = num / den / 2 ^ place := by
  rw [significandAt]
  split
  · rename_i nonnegative
    obtain ⟨power, rfl⟩ := Int.eq_ofNat_of_zero_le nonnegative
    refine ⟨num, den * 2 ^ power, by positivity, rfl, ?_⟩
    rw [zpow_natCast, div_div]
    push_cast
    rfl
  · rename_i negative
    obtain ⟨power, rfl⟩ := Int.eq_negSucc_of_lt_zero (not_le.mp negative)
    refine ⟨num * 2 ^ (power + 1), den, positive, rfl, ?_⟩
    rw [zpow_negSucc, div_inv_eq_mul]
    push_cast
    ring

/-- The nearest number of units is at most half a unit away. -/
theorem abs_significandAt_sub_le (num : Nat) (place : Int) :
    |(significandAt num den place : ℚ) * 2 ^ place - num / den| ≤ 2 ^ place / 2 := by
  obtain ⟨part, unit, unit_pos, same, quotient⟩ := exists_significandAt positive num place
  have near : |(roundHalfEven part unit : ℚ) - part / unit| ≤ 1 / 2 :=
    abs_roundHalfEven_sub_le unit_pos
  have place_pos : (0 : ℚ) < 2 ^ place := by positivity
  have scaled : (roundHalfEven part unit : ℚ) * 2 ^ place - num / den =
      (roundHalfEven part unit - part / unit) * 2 ^ place := by
    rw [quotient]
    field_simp
  rw [same, scaled, abs_mul, abs_of_pos place_pos]
  linarith [mul_le_mul_of_nonneg_right near place_pos.le]

theorem lt_of_significandAt_odd (odd : significandAt num den place % 2 = 1) :
    (num : ℚ) / den < (significandAt num den place + 1 / 2) * 2 ^ place := by
  obtain ⟨part, unit, unit_pos, same, quotient⟩ := exists_significandAt positive num place
  rw [same] at odd ⊢
  have below : 2 * (part : ℚ) < (2 * roundHalfEven part unit + 1) * unit := by
    exact_mod_cast two_mul_lt_of_odd unit_pos odd
  have place_pos : (0 : ℚ) < 2 ^ place := by positivity
  have unit_pos' : (0 : ℚ) < unit := by exact_mod_cast unit_pos
  rw [← div_lt_iff₀ place_pos, ← quotient, div_lt_iff₀ unit_pos']
  linarith

theorem significandAt_le {bound : Nat} (below : (num : ℚ) / den ≤ bound * 2 ^ place) :
    significandAt num den place ≤ bound := by
  obtain ⟨part, unit, unit_pos, same, quotient⟩ := exists_significandAt positive num place
  rw [same]
  refine roundHalfEven_le unit_pos ?_
  rwa [quotient, div_le_iff₀ (by positivity)]

/-- A whole number of units is itself the nearest one. -/
theorem significandAt_eq {whole : Nat} (exact : (num : ℚ) / den = whole * 2 ^ place) :
    significandAt num den place = whole := by
  obtain ⟨part, unit, unit_pos, same, quotient⟩ := exists_significandAt positive num place
  rw [same]
  refine roundHalfEven_eq unit_pos ?_
  rw [quotient, exact]
  field_simp

end

/-! ### The nearest number -/

/-- The significand and its place, where a carry into the 54th bit raises the place by one. -/
def rounded (num den : Nat) : Nat × Int :=
  if significandAt num den (lastPlace num den) = Nat.pow 2 53 then
    (Nat.pow 2 52, lastPlace num den + 1)
  else (significandAt num den (lastPlace num den), lastPlace num den)

theorem ofQuotient_of_ne_zero (nonzero : num ≠ 0) (negative : Bool) (den : Nat) :
    ofQuotient negative num den =
      if maxExponent < (rounded num den).2 then infinity negative
      else if (rounded num den).1 = 0 then zero negative
      else finite negative (rounded num den).1 (rounded num den).2 := by
  rw [ofQuotient, if_neg nonzero]
  rfl

/-- The nearest number is an infinity or a finite number. -/
theorem ofQuotient_finite_of_ne {negative : Bool}
    (bounded : ofQuotient negative num den ≠ infinity negative) :
    ∃ significand exponent, ofQuotient negative num den = finite negative significand exponent := by
  by_cases nonzero : num = 0
  · exact ⟨0, minExponent, if_pos nonzero⟩
  · rw [ofQuotient_of_ne_zero nonzero] at bounded ⊢
    by_cases high : maxExponent < (rounded num den).2
    · exact absurd (if_pos high) bounded
    · by_cases vanishes : (rounded num den).1 = 0
      · exact ⟨0, minExponent, by rw [if_neg high, if_pos vanishes, zero]⟩
      · exact ⟨_, _, by rw [if_neg high, if_neg vanishes]⟩

theorem rounded_eq (num den : Nat) :
    ((rounded num den).1 : ℚ) * 2 ^ (rounded num den).2 =
      significandAt num den (lastPlace num den) * 2 ^ lastPlace num den := by
  rw [rounded]
  split
  · rename_i carries
    rw [carries, zpow_add_one₀ two_ne_zero]
    norm_num
    ring
  · rfl

/-- A number that is not infinite has the value of its significand at the last place. -/
theorem toRat_ofQuotient_signed (nonzero : num ≠ 0) {den : Nat} {negative : Bool}
    (bounded : ofQuotient negative num den ≠ infinity negative) :
    (ofQuotient negative num den).toRat =
      if negative then -((significandAt num den (lastPlace num den) : ℚ) * 2 ^ lastPlace num den)
      else (significandAt num den (lastPlace num den) : ℚ) * 2 ^ lastPlace num den := by
  rw [ofQuotient_of_ne_zero nonzero] at bounded ⊢
  rw [← rounded_eq]
  by_cases high : maxExponent < (rounded num den).2
  · exact absurd (if_pos high) bounded
  · rw [if_neg high]
    by_cases vanishes : (rounded num den).1 = 0
    · rw [if_pos vanishes, vanishes]
      simp [zero, toRat]
    · rw [if_neg vanishes, toRat, pow2_eq_zpow]

theorem toRat_ofQuotient (nonzero : num ≠ 0) {den : Nat}
    (bounded : ofQuotient false num den ≠ infinity false) :
    (ofQuotient false num den).toRat =
      significandAt num den (lastPlace num den) * 2 ^ lastPlace num den :=
  toRat_ofQuotient_signed nonzero bounded

/-- A number is infinite if its last place is too high, be it only because rounding carries. -/
theorem ofQuotient_eq_infinity_iff (nonzero : num ≠ 0) {den : Nat} (negative other : Bool) :
    ofQuotient negative num den = infinity other ↔ negative = other ∧
      (maxExponent < lastPlace num den ∨ lastPlace num den = maxExponent ∧
        significandAt num den (lastPlace num den) = Nat.pow 2 53) := by
  rw [ofQuotient_of_ne_zero nonzero, rounded]
  by_cases carries : significandAt num den (lastPlace num den) = Nat.pow 2 53
  · rw [if_pos carries]
    by_cases high : maxExponent < lastPlace num den + 1
    · simp [high, carries]
      omega
    · simp [high, carries]
      omega
  · rw [if_neg carries]
    by_cases high : maxExponent < lastPlace num den
    · simp [high]
    · by_cases vanishes : significandAt num den (lastPlace num den) = 0
      · simp [high, vanishes, zero]
      · simp [high, carries, vanishes]

end Binary64

end TextGrammar
