import TextGrammar.Number.Binary64

/-!
Numbers with a fixed count of decimal places: the exact value is rounded, a tie to the even digit.
-/

namespace TextGrammar.Binary64

/-- The magnitude in units of the last of `places` decimal places, rounded. -/
def fixedUnits (places significand : Nat) (exponent : Int) : Nat :=
  if 0 ≤ exponent then significand * Nat.pow 2 exponent.toNat * Nat.pow 10 places
  else roundHalfEven (significand * Nat.pow 10 places) (Nat.pow 2 (-exponent).toNat)

/-- Digits with a point before the last `places` of them. -/
def withPoint (places units : Nat) : String :=
  let digits := Nat.toDigits 10 units
  let digits := List.replicate (places + 1 - digits.length) '0' ++ digits
  let whole := digits.length - places
  String.ofList (if places = 0 then digits else digits.take whole ++ '.' :: digits.drop whole)

/-- The text of a number with `places` decimal places; a negative number keeps its sign even if it
rounds to zero. -/
def fixed (places : Nat) : Binary64 → String
  | nan => "nan"
  | infinity negative => if negative then "-inf" else "inf"
  | finite negative significand exponent =>
    (if negative then "-" else "") ++ withPoint places (fixedUnits places significand exponent)

end TextGrammar.Binary64
