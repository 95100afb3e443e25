import TextGrammar.Proofs.Number.Overflow

/-!
Rounding up a quotient that was rounded to the nearest floating-point number before. Main statement:
the first rounding makes no difference if the numerator takes no more than 53 bits.
-/

namespace TextGrammar.Binary64

section

variable {num den : Nat} (nonzero : num ≠ 0) (positive : 0 < den)

include nonzero positive

theorem ofQuotient_ne_infinity {bound : Nat} (below : (num : ℚ) / den ≤ bound)
    (small : bound ≤ 2 ^ 53) (negative other : Bool) :
    ofQuotient negative num den ≠ infinity other := by
  intro infinite
  obtain ⟨-, reached⟩ := (ofQuotient_eq_infinity_iff_overflow nonzero positive _ _).mp infinite
  have den_pos : (0 : ℚ) < den := by exact_mod_cast positive
  have whole : num ≤ bound * den := by exact_mod_cast (div_le_iff₀ den_pos).mp below
  have least : overflow ≤ bound := Nat.le_of_mul_le_mul_right (reached.trans whole) positive
  exact absurd least (Nat.not_le_of_lt (lt_overflow small))

/-- A power of two is a number itself. -/
theorem toRat_ofQuotient_of_pow (bounded : ofQuotient false num den ≠ infinity false)
    (power : (num : ℚ) / den = 2 ^ (lastPlace num den + 52)) :
    (ofQuotient false num den).toRat = num / den := by
  have exact : (num : ℚ) / den = ((2 ^ 52 : ℕ) : ℚ) * 2 ^ lastPlace num den := by
    rw [power, zpow_add₀ two_ne_zero, mul_comm]
    norm_num
  rw [toRat_ofQuotient nonzero bounded, significandAt_eq positive exact, exact]

/-- Below an integer of at most 53 bits all numbers but this one have places for fractions or
units. -/
theorem lastPlace_nonpos_or_eq_pow {bound : Nat} (below : (num : ℚ) / den ≤ bound)
    (small : bound ≤ 2 ^ 53) :
    lastPlace num den ≤ 0 ∨ (num : ℚ) / den = 2 ^ (lastPlace num den + 52) := by
  by_cases low : lastPlace num den ≤ 0
  · exact .inl low
  · obtain ⟨-, least⟩ := lastPlace_spec nonzero positive
    have reached := least (by rw [minExponent]; omega)
    have high : (2 : ℚ) ^ (53 : ℤ) ≤ 2 ^ (lastPlace num den + 52) :=
      zpow_le_zpow_right₀ one_le_two (by omega)
    have most : (num : ℚ) / den ≤ 2 ^ (53 : ℤ) := below.trans (by exact_mod_cast small)
    exact .inr (le_antisymm (most.trans high) reached)

/-- Rounding does not pass an integer of at most 53 bits. -/
theorem toRat_ofQuotient_le {bound : Nat} (below : (num : ℚ) / den ≤ bound)
    (small : bound ≤ 2 ^ 53) : (ofQuotient false num den).toRat ≤ bound := by
  have bounded := ofQuotient_ne_infinity nonzero positive below small false false
  rcases lastPlace_nonpos_or_eq_pow nonzero positive below small with low | power
  · have places : ((bound * 2 ^ (-lastPlace num den).toNat : ℕ) : ℚ) * 2 ^ lastPlace num den =
        bound := by
      obtain ⟨count, same⟩ := Int.eq_ofNat_of_zero_le (neg_nonneg.mpr low)
      rw [← neg_neg (lastPlace num den), same, zpow_neg]
      simp
    have most : significandAt num den (lastPlace num den) ≤
        bound * 2 ^ (-lastPlace num den).toNat := by
      refine significandAt_le positive ?_
      rwa [places]
    rw [toRat_ofQuotient nonzero bounded, ← places]
    gcongr
  · rwa [toRat_ofQuotient_of_pow nonzero positive bounded power]

/-- Rounding a quotient of at least one is off by less than the least distance between quotients of
this denominator, if the numerator takes at most 53 bits. -/
theorem abs_toRat_ofQuotient_sub_lt (least : den ≤ num) (most : num ≤ 2 ^ 53) :
    |(ofQuotient false num den).toRat - num / den| < 1 / den := by
  have den_pos : (0 : ℚ) < den := by exact_mod_cast positive
  have below : (num : ℚ) / den ≤ num :=
    div_le_self (Nat.cast_nonneg num) (by exact_mod_cast positive)
  have bounded := ofQuotient_ne_infinity nonzero positive below most false false
  obtain ⟨above, reached⟩ := lastPlace_spec nonzero positive
  have one : (1 : ℚ) ≤ num / den := (one_le_div den_pos).mpr (by exact_mod_cast least)
  have high : minExponent < lastPlace num den := by
    have wide : (2 : ℚ) ^ (0 : ℤ) < 2 ^ (lastPlace num den + 53) := by
      rw [zpow_zero]
      exact one.trans_lt above
    have exponents := (zpow_lt_zpow_iff_right₀ one_lt_two).mp wide
    rw [minExponent]
    omega
  rcases (reached high).eq_or_lt with power | more
  · rw [toRat_ofQuotient_of_pow nonzero positive bounded power.symm, sub_self, abs_zero]
    positivity
  · have near := abs_significandAt_sub_le positive num (lastPlace num den)
    have split : (2 : ℚ) ^ (lastPlace num den + 52) = 2 ^ 53 * (2 ^ lastPlace num den / 2) := by
      rw [zpow_add₀ two_ne_zero]
      ring
    have cap : (num : ℚ) / den ≤ 2 ^ 53 * (1 / den) := by
      rw [mul_one_div]
      gcongr
      exact_mod_cast most
    rw [toRat_ofQuotient nonzero bounded]
    refine near.trans_lt (lt_of_mul_lt_mul_left ?_ (by positivity : (0 : ℚ) ≤ 2 ^ 53))
    rw [← split]
    exact more.trans_le cap

/-- The nearest number of a quotient of at least one is rounded up to the same integer as the
quotient itself, if the numerator takes at most 53 bits. -/
theorem ceil_toRat_ofQuotient (least : den ≤ num) (most : num ≤ 2 ^ 53) :
    ⌈(ofQuotient false num den).toRat⌉ = ⌈(num : ℚ) / den⌉ := by
  have den_pos : (0 : ℚ) < den := by exact_mod_cast positive
  obtain ⟨whole, up⟩ : ∃ whole : ℕ, ⌈(num : ℚ) / den⌉ = whole :=
    Int.eq_ofNat_of_zero_le (Int.ceil_nonneg (by positivity))
  have below : (num : ℚ) / den ≤ whole := by exact_mod_cast up ▸ Int.le_ceil _
  have small : whole ≤ num := by
    have self : (num : ℚ) / den ≤ (num : ℤ) :=
      div_le_self (by positivity) (by exact_mod_cast positive)
    exact_mod_cast up ▸ Int.ceil_le.mpr self
  have above : ((whole : ℤ) : ℚ) - 1 < num / den := by
    rw [← up]
    exact sub_lt_iff_lt_add.mpr (Int.ceil_lt_add_one _)
  -- the quotient is at least one part of the denominator above the integer below it
  have apart : ((whole : ℤ) : ℚ) - 1 + 1 / den ≤ num / den := by
    have more : ((whole : ℤ) - 1) * den + 1 ≤ (num : ℤ) := by
      have less : (((whole : ℤ) : ℚ) - 1) * den < num := (lt_div_iff₀ den_pos).mp above
      exact_mod_cast less
    rw [le_div_iff₀ den_pos, add_mul, one_div_mul_cancel den_pos.ne']
    exact_mod_cast more
  have near := abs_lt.mp (abs_toRat_ofQuotient_sub_lt nonzero positive least most)
  rw [up, Int.ceil_eq_iff]
  refine ⟨?_, ?_⟩
  · linarith [near.1]
  · exact_mod_cast toRat_ofQuotient_le nonzero positive below (small.trans most)

end

end TextGrammar.Binary64
