import TextGrammar.Number.Basic
import TextGrammar.Random.Draws

/-!
Scripted draws: the draws are given beforehand, and every request for one is written down.
-/

namespace TextGrammar

/-- A request for a draw. -/
inductive DrawCall where
  | below (bound : Nat)
  | unit
deriving DecidableEq, Repr

/-- The draws to come and the requests so far, the latest first. -/
structure Script where
  draws : List Number
  calls : List DrawCall
deriving Repr

namespace Script

/-- The next draw; zero if there is none. -/
def next (script : Script) : Number := script.draws.headD (.int 0)

/-- The script behind a request. -/
def answered (script : Script) (call : DrawCall) : Script :=
  ⟨script.draws.drop 1, call :: script.calls⟩

/-- A draw below a bound: the remainder of the integer part of the next draw. -/
def below (bound : Nat) (positive : 0 < bound) (script : Script) : Fin bound × Script :=
  let drawn : Int := match script.next.truncate with
    | .ok value => value
    | .error _ => 0
  (⟨(drawn % (bound : Int)).toNat, by
    have small := Int.emod_lt_of_pos drawn (Int.natCast_pos.mpr positive)
    omega⟩, script.answered (.below bound))

/-- A draw that is itself below the bound is taken as it is. -/
theorem below_of_lt {bound : Nat} (positive : 0 < bound) (place : Fin bound) {script : Script}
    {later : List Number} (first : script.draws = .int place :: later) :
    script.below bound positive = (place, ⟨later, .below bound :: script.calls⟩) := by
  have kept : ((place : Int) % (bound : Int)).toNat = place := by
    rw [Int.emod_eq_of_lt (by omega) (by omega)]
    rfl
  have given : script.next = .int place := by rw [next, first]; rfl
  apply Prod.ext
  · apply Fin.ext
    simp only [below, given]
    exact kept
  · simp [below, answered, first]

/-- The next draw as a floating-point number. -/
def unit (script : Script) : Binary64 × Script :=
  (script.next.toBinary64.toOption.getD 0, script.answered .unit)

instance : Draws Script := ⟨below, unit⟩

end Script

end TextGrammar
