import TextGrammar.Proofs.Number.Exact

/-!
Rounding keeps the order. Main statement: of two rationals the lesser one does not have the greater
nearest floating-point number, so numbers that are apart after rounding were so before.
-/

namespace TextGrammar

/-! ### Rounding of quotients -/

section

variable {num den num' den' : Nat} (positive : 0 < den) (positive' : 0 < den')

include positive

/-- Only an even number is rounded to from as far as half a unit below it. -/
theorem two_mul_roundHalfEven_lt (odd : roundHalfEven num den % 2 = 1) :
    2 * (roundHalfEven num den * den) < 2 * num + den := by
  have whole : den * (num / den) + num % den = num := Nat.div_add_mod num den
  have commuted : num / den * den = den * (num / den) := Nat.mul_comm _ _
  have next : (num / den + 1) * den = den * (num / den) + den := by ring
  simp only [roundHalfEven] at odd ⊢
  split
  · omega
  · split
    · omega
    · rw [if_neg ‹_›, if_neg ‹_›] at odd
      omega

include positive'

theorem roundHalfEven_mono (le : (num : ℚ) / den ≤ num' / den') :
    roundHalfEven num den ≤ roundHalfEven num' den' := by
  refine Nat.le_of_not_lt fun less => ?_
  have den_pos : (0 : ℚ) < den := by exact_mod_cast positive
  have den_pos' : (0 : ℚ) < den' := by exact_mod_cast positive'
  have near : |(roundHalfEven num den : ℚ) - num / den| ≤ 1 / 2 :=
    abs_roundHalfEven_sub_le positive
  have near' : |(roundHalfEven num' den' : ℚ) - num' / den'| ≤ 1 / 2 :=
    abs_roundHalfEven_sub_le positive'
  rw [abs_le] at near near'
  have apart : (roundHalfEven num' den' : ℚ) + 1 ≤ roundHalfEven num den := by exact_mod_cast less
  -- both quotients are the one number in the middle, and not both neighbours are even
  have lower : (num : ℚ) / den = roundHalfEven num den - 1 / 2 := by linarith
  have upper : (num' : ℚ) / den' = roundHalfEven num' den' + 1 / 2 := by linarith
  have next : roundHalfEven num den = roundHalfEven num' den' + 1 := by
    have same : (roundHalfEven num den : ℚ) = roundHalfEven num' den' + 1 := by linarith
    exact_mod_cast same
  rcases Nat.mod_two_eq_zero_or_one (roundHalfEven num' den') with even | odd
  · have strict : 2 * ((roundHalfEven num den : ℚ) * den) < 2 * num + den := by
      exact_mod_cast two_mul_roundHalfEven_lt positive (by omega)
    rw [div_eq_iff den_pos.ne'] at lower
    linarith
  · have strict : 2 * (num' : ℚ) < (2 * roundHalfEven num' den' + 1) * den' := by
      exact_mod_cast two_mul_lt_of_odd positive' odd
    rw [div_eq_iff den_pos'.ne'] at upper
    linarith

end

namespace Binary64

/-! ### Nearest magnitudes -/

/-- The nearest whole number of units of the last place, as a rational. -/
def nearestMagnitude (num den : Nat) : ℚ :=
  significandAt num den (lastPlace num den) * 2 ^ lastPlace num den

theorem nearestMagnitude_nonneg (num den : Nat) : 0 ≤ nearestMagnitude num den := by
  unfold nearestMagnitude
  positivity

theorem minExponent_le_lastPlace (num den : Nat) : minExponent ≤ lastPlace num den :=
  le_max_right _ _

theorem zpow_place_add (place : Int) (digits : Nat) :
    (2 : ℚ) ^ (place + digits) = (2 ^ digits : ℕ) * 2 ^ place := by
  rw [zpow_add₀ two_ne_zero, zpow_natCast, Nat.cast_pow, Nat.cast_ofNat, mul_comm]

section

variable {num den num' den' : Nat} (positive : 0 < den) (positive' : 0 < den')

include positive

theorem nearestMagnitude_zero : nearestMagnitude 0 den = 0 := by
  have none : significandAt 0 den (lastPlace 0 den) = 0 := significandAt_eq positive (by simp)
  rw [nearestMagnitude, none, Nat.cast_zero, zero_mul]

theorem le_significandAt {bound : Nat} {place : Int} (above : (bound : ℚ) * 2 ^ place ≤ num / den) :
    bound ≤ significandAt num den place := by
  obtain ⟨part, unit, unit_pos, same, quotient⟩ := exists_significandAt positive num place
  have exact : (bound : ℚ) / (1 : ℕ) = bound := by simp
  have most : (bound : ℚ) / (1 : ℕ) ≤ part / unit := by
    rwa [exact, quotient, le_div_iff₀ (by positivity)]
  rw [same, ← roundHalfEven_eq Nat.one_pos exact]
  exact roundHalfEven_mono Nat.one_pos unit_pos most

/-- Rounding does not pass the power of two above a number. -/
theorem nearestMagnitude_le (nonzero : num ≠ 0) :
    nearestMagnitude num den ≤ 2 ^ (lastPlace num den + 53) := by
  have scaled : (2 : ℚ) ^ (lastPlace num den + 53) = (2 ^ 53 : ℕ) * 2 ^ lastPlace num den :=
    zpow_place_add _ 53
  have below : significandAt num den (lastPlace num den) ≤ 2 ^ 53 :=
    significandAt_le positive (scaled ▸ (lastPlace_spec nonzero positive).1.le)
  rw [nearestMagnitude, scaled]
  gcongr

/-- Nor does it pass the power of two below a number, from the least places upward. -/
theorem le_nearestMagnitude (nonzero : num ≠ 0) (above : minExponent < lastPlace num den) :
    2 ^ (lastPlace num den + 52) ≤ nearestMagnitude num den := by
  have scaled : (2 : ℚ) ^ (lastPlace num den + 52) = (2 ^ 52 : ℕ) * 2 ^ lastPlace num den :=
    zpow_place_add _ 52
  have above : 2 ^ 52 ≤ significandAt num den (lastPlace num den) :=
    le_significandAt positive (scaled ▸ (lastPlace_spec nonzero positive).2 above)
  rw [nearestMagnitude, scaled]
  gcongr

include positive'

theorem significandAt_mono (le : (num : ℚ) / den ≤ num' / den') (place : Int) :
    significandAt num den place ≤ significandAt num' den' place := by
  obtain ⟨part, unit, unit_pos, same, quotient⟩ := exists_significandAt positive num place
  obtain ⟨part', unit', unit_pos', same', quotient'⟩ := exists_significandAt positive' num' place
  rw [same, same']
  refine roundHalfEven_mono unit_pos unit_pos' ?_
  rw [quotient, quotient']
  gcongr

theorem lastPlace_mono (nonzero : num ≠ 0) (nonzero' : num' ≠ 0)
    (le : (num : ℚ) / den ≤ num' / den') : lastPlace num den ≤ lastPlace num' den' := by
  refine not_lt.mp fun more => ?_
  have least := (lastPlace_spec nonzero positive).2 ((minExponent_le_lastPlace _ _).trans_lt more)
  have most := (lastPlace_spec nonzero' positive').1
  have places := (zpow_lt_zpow_iff_right₀ one_lt_two).mp ((least.trans le).trans_lt most)
  omega

theorem nearestMagnitude_mono (le : (num : ℚ) / den ≤ num' / den') :
    nearestMagnitude num den ≤ nearestMagnitude num' den' := by
  by_cases nonzero : num = 0
  · rw [nonzero, nearestMagnitude_zero positive]
    exact nearestMagnitude_nonneg _ _
  have nonzero' : num' ≠ 0 := by
    rintro rfl
    have num_pos : (0 : ℚ) < num := by exact_mod_cast Nat.pos_of_ne_zero nonzero
    have above : (0 : ℚ) < num / den := div_pos num_pos (by exact_mod_cast positive)
    rw [Nat.cast_zero, zero_div] at le
    exact absurd le above.not_ge
  rcases (lastPlace_mono positive positive' nonzero nonzero' le).lt_or_eq with less | same
  · calc nearestMagnitude num den
        ≤ 2 ^ (lastPlace num den + 53) := nearestMagnitude_le positive nonzero
      _ ≤ 2 ^ (lastPlace num' den' + 52) := zpow_le_zpow_right₀ one_le_two (by omega)
      _ ≤ nearestMagnitude num' den' :=
        le_nearestMagnitude positive' nonzero' ((minExponent_le_lastPlace _ _).trans_lt less)
  · unfold nearestMagnitude
    rw [same]
    gcongr
    exact significandAt_mono positive positive' le _

end

/-! ### Nearest numbers -/

/-- The value of the floating-point number nearest to a rational, if that is not infinite. -/
def nearest? (value : ℚ) : Option ℚ := (ofRat value).value?

theorem nearest?_of_isValue {value : ℚ} (exact : IsValue value) : nearest? value = some value :=
  value?_ofRat exact

/-- The nearest number has the nearest magnitude and the same sign. -/
theorem eq_of_nearest? {value place : ℚ} (near : nearest? value = some place) :
    place = if value < 0 then -nearestMagnitude value.num.natAbs value.den
      else nearestMagnitude value.num.natAbs value.den := by
  obtain ⟨negative, significand, exponent, finite, is⟩ := exists_finite near
  rw [← finite] at is
  by_cases zero : value = 0
  · subst zero
    have none : (ofRat 0).toRat = 0 := by simp [ofRat, ofQuotient, Binary64.zero, toRat]
    rw [← is, if_neg (lt_irrefl 0), none]
    exact (nearestMagnitude_zero Nat.one_pos).symm
  · have nonzero : value.num.natAbs ≠ 0 := Int.natAbs_ne_zero.mpr (Rat.num_ne_zero.mpr zero)
    have bounded : ofQuotient (value.num < 0) value.num.natAbs value.den ≠
        infinity (value.num < 0) := by
      intro infinite
      rw [ofRat, infinite] at finite
      cases finite
    rw [← is, ofRat, toRat_ofQuotient_signed nonzero bounded]
    simp only [decide_eq_true_eq, Rat.num_neg]
    rfl

theorem nearest?_mono {value value' place place' : ℚ} (near : nearest? value = some place)
    (near' : nearest? value' = some place') (le : value ≤ value') : place ≤ place' := by
  rw [eq_of_nearest? near, eq_of_nearest? near']
  by_cases below : value < 0
  · rw [if_pos below]
    by_cases below' : value' < 0
    · rw [if_pos below']
      have magnitudes : |value'| ≤ |value| := by
        rw [abs_of_neg below, abs_of_neg below']
        exact neg_le_neg le
      rw [abs_eq_natAbs_div, abs_eq_natAbs_div] at magnitudes
      exact neg_le_neg (nearestMagnitude_mono value'.den_pos value.den_pos magnitudes)
    · rw [if_neg below']
      exact (neg_nonpos.mpr (nearestMagnitude_nonneg _ _)).trans (nearestMagnitude_nonneg _ _)
  · have nonneg := not_lt.mp below
    rw [if_neg below, if_neg (not_lt.mpr (nonneg.trans le))]
    refine nearestMagnitude_mono value.den_pos value'.den_pos ?_
    rwa [← abs_eq_natAbs_div, ← abs_eq_natAbs_div, abs_of_nonneg nonneg,
      abs_of_nonneg (nonneg.trans le)]

end Binary64

end TextGrammar
