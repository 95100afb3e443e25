import TextGrammar.Number.Binary64

/-!
Sources of random draws.
-/

namespace TextGrammar

/-- A source of random draws: numbers below a positive bound, and floating-point numbers that are
meant to lie between zero and one. -/
class Draws (ρ : Type) where
  below (bound : Nat) (positive : 0 < bound) : ρ → Fin bound × ρ
  unit : ρ → Binary64 × ρ

/-- A source that starts anew from a seed. -/
class Seeded (ρ : Type) where
  ofSeed : Int → ρ

end TextGrammar
