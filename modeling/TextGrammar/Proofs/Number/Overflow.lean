import TextGrammar.Proofs.Number.Nearest

/-!
Quotients beyond the range of floating-point numbers. Main statement: a quotient has no nearest
finite number exactly if it reaches the middle between the greatest one and the power of two above
it; so it is with the magnitude of an integer.
-/

namespace TextGrammar.Binary64

/-- The least magnitude of an integer that no floating-point number is near to. -/
def overflow : Nat := (2 ^ 54 - 1) * 2 ^ 970

theorem lt_overflow {num : Nat} (small : num ≤ 2 ^ 53) : num < overflow := by
  have some := Nat.two_pow_pos 970
  rw [overflow]
  omega

theorem overflow_mul_le_iff {num den : Nat} (positive : 0 < den) :
    overflow * den ≤ num ↔ (2 ^ 54 - 1) * 2 ^ 970 ≤ (num : ℚ) / den := by
  have den_pos : (0 : ℚ) < den := by exact_mod_cast positive
  have value : (overflow : ℚ) = (2 ^ 54 - 1) * 2 ^ 970 := by
    rw [overflow, Nat.cast_mul, Nat.cast_sub (by decide)]
    simp only [Nat.cast_pow, Nat.cast_ofNat, Nat.cast_one]
  rw [le_div_iff₀ den_pos, ← value]
  exact_mod_cast Iff.rfl

/-- A quotient is too great exactly from the middle of the last unit on. -/
theorem high_iff {num den : Nat} (nonzero : num ≠ 0) (positive : 0 < den) :
    (maxExponent < lastPlace num den ∨ lastPlace num den = maxExponent ∧
        significandAt num den (lastPlace num den) = Nat.pow 2 53) ↔ overflow * den ≤ num := by
  rw [overflow_mul_le_iff positive]
  obtain ⟨most, least⟩ := lastPlace_spec nonzero positive
  have unit : (2 : ℚ) ^ maxExponent = 2 * 2 ^ 970 := by
    rw [show maxExponent = ((970 + 1 : ℕ) : ℤ) from rfl, zpow_natCast, pow_succ']
  have half_pos : (0 : ℚ) < 2 ^ 970 := by positivity
  -- the powers are too large to be written out, and only their ratios matter
  generalize (2 : ℚ) ^ 970 = half at *
  have below : (2 : ℚ) ^ (maxExponent + 52) = 2 ^ 53 * half := by
    rw [zpow_add₀ two_ne_zero, unit]
    ring
  have above : (2 : ℚ) ^ (maxExponent + 53) = 2 ^ 54 * half := by
    rw [zpow_add₀ two_ne_zero, unit]
    ring
  rcases lt_trichotomy (lastPlace num den) maxExponent with less | same | more
  · have small : (2 : ℚ) ^ (lastPlace num den + 53) ≤ 2 ^ (maxExponent + 52) :=
      zpow_le_zpow_right₀ one_le_two (by omega)
    have low : (num : ℚ) / den < 2 ^ 53 * half := below ▸ most.trans_le small
    refine iff_of_false (by omega) fun reached => ?_
    linarith only [low, reached, half_pos]
  · have near := abs_le.mp (abs_significandAt_sub_le positive num maxExponent)
    rw [same] at most ⊢
    rw [above] at most
    simp only [lt_irrefl, false_or, true_and]
    rw [unit] at near
    constructor
    · intro carries
      have high := near.2
      rw [carries] at high
      push_cast at high
      linarith only [high]
    · intro reached
      have atMost : significandAt num den maxExponent ≤ 2 ^ 53 := by
        refine significandAt_le positive ?_
        rw [unit]
        push_cast
        linarith only [most]
      refine le_antisymm atMost (not_lt.mp fun less => ?_)
      -- one unit less would be half a unit away, which an odd number is not rounded to
      have least : (2 : ℚ) ^ 53 - 1 ≤ significandAt num den maxExponent := by
        refine le_of_mul_le_mul_right ?_ (mul_pos two_pos half_pos)
        linarith only [near.1, reached]
      have odd : significandAt num den maxExponent = 2 ^ 53 - 1 := by
        refine le_antisymm (Nat.le_sub_one_of_lt less) ?_
        have cast : ((2 ^ 53 - 1 : ℕ) : ℚ) ≤ significandAt num den maxExponent := by
          rw [Nat.cast_sub Nat.one_le_two_pow, Nat.cast_pow, Nat.cast_ofNat, Nat.cast_one]
          exact least
        exact_mod_cast cast
      have uneven : significandAt num den maxExponent % 2 = 1 := by
        rw [odd]
        norm_num
      have short := lt_of_significandAt_odd positive uneven
      rw [odd, unit] at short
      norm_num at short reached
      linarith only [short, reached]
  · have large : (2 : ℚ) ^ (maxExponent + 53) ≤ 2 ^ (lastPlace num den + 52) :=
      zpow_le_zpow_right₀ one_le_two (by omega)
    refine iff_of_true (.inl more) ?_
    have reached := least (by simp only [minExponent, maxExponent] at more ⊢; omega)
    have high : 2 ^ 54 * half ≤ (num : ℚ) / den := above ▸ large.trans reached
    linarith only [high, half_pos]

theorem ofQuotient_eq_infinity_iff_overflow {num den : Nat} (nonzero : num ≠ 0) (positive : 0 < den)
    (negative other : Bool) :
    ofQuotient negative num den = infinity other ↔ negative = other ∧ overflow * den ≤ num := by
  rw [ofQuotient_eq_infinity_iff nonzero, high_iff nonzero positive]

/-- An integer has no nearest finite number exactly if it is of such a magnitude. -/
theorem ofInt?_eq_none_iff {value : Int} : ofInt? value = none ↔ overflow ≤ value.natAbs := by
  by_cases zero : value.natAbs = 0
  · rw [ofInt?, ofQuotient, if_pos zero, Binary64.zero]
    refine iff_of_false (fun refused => ?_) (Nat.not_le_of_lt (lt_overflow (by omega)))
    cases refused
  · have infinite := ofQuotient_eq_infinity_iff_overflow zero Nat.one_pos (value < 0)
    simp only [Nat.mul_one] at infinite
    rw [ofInt?]
    constructor
    · intro refused
      cases found : ofQuotient (value < 0) value.natAbs 1 with
      | infinity negative => exact ((infinite negative).mp found).2
      | finite negative significand exponent =>
        rw [found] at refused
        cases refused
      | nan =>
        rw [found] at refused
        cases refused
    · intro beyond
      rw [(infinite _).mpr ⟨rfl, beyond⟩]

end TextGrammar.Binary64
