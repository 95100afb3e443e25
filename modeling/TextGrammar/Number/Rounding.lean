/-!
Rounding of exact quotients. Main statement: the rounded quotient lies within half a unit of the
exact one.
-/

namespace TextGrammar

/-- The integer nearest to `num / den`; a half goes to the even neighbour. -/
def roundHalfEven (num den : Nat) : Nat :=
  let quotient := num / den
  let rest := num % den
  if 2 * rest < den then quotient
  else if den < 2 * rest then quotient + 1
  else quotient + quotient % 2

theorem roundHalfEven_near (num den : Nat) (positive : 0 < den) :
    2 * (roundHalfEven num den * den) ≤ 2 * num + den ∧
      2 * num ≤ 2 * (roundHalfEven num den * den) + den := by
  have whole : den * (num / den) + num % den = num := Nat.div_add_mod num den
  have small : num % den < den := Nat.mod_lt _ positive
  have comm : num / den * den = den * (num / den) := Nat.mul_comm ..
  have succ : (num / den + 1) * den = den * (num / den) + den := by
    rw [Nat.add_mul, Nat.mul_comm]; simp
  simp only [roundHalfEven]
  split
  · omega
  · split
    · omega
    · rcases Nat.mod_two_eq_zero_or_one (num / den) with even | odd
      · rw [even, Nat.add_zero]; omega
      · rw [odd]; omega

end TextGrammar
