import TextGrammar.Number.Binary64

/-!
The fewest decimal digits that read back to a binary number, and their layout. A decimal reads back
to a number if it lies in the interval of reals that round to it; of the decimals with the fewest
digits the nearest is taken, and a tie goes to the even last digit.
-/

namespace TextGrammar

/-- `digits * 10^exponent`. -/
structure Decimal where
  digits : Nat
  exponent : Int
deriving DecidableEq, Repr

namespace Decimal

/-- A power of ten as a rational. -/
def pow10 (exponent : Int) : Rat :=
  if 0 ≤ exponent then (Nat.pow 10 exponent.toNat : Rat)
  else mkRat 1 (Nat.pow 10 (-exponent).toNat)

def toRat (decimal : Decimal) : Rat := decimal.digits * pow10 decimal.exponent

/-- Trailing zeros move into the exponent, at most `fuel` of them. -/
def strip : Nat → Decimal → Decimal
  | 0, decimal => decimal
  | fuel + 1, decimal =>
    if decimal.digits ≠ 0 ∧ decimal.digits % 10 = 0 then
      strip fuel ⟨decimal.digits / 10, decimal.exponent + 1⟩
    else decimal

end Decimal

namespace Binary64

/-- The least real that rounds to the number from below, or the limit of those, for a positive
significand: half a unit below, a quarter of one where the unit changes. -/
def lowerEnd (significand : Nat) (exponent : Int) : Rat :=
  let quarters := if significand = Nat.pow 2 52 ∧ minExponent < exponent then 1 else 2
  ((4 * significand - quarters : Nat) : Rat) * pow2 (exponent - 2)

/-- The greatest real that rounds to the number from above, or the limit of those. -/
def upperEnd (significand : Nat) (exponent : Int) : Rat :=
  ((4 * significand + 2 : Nat) : Rat) * pow2 (exponent - 2)

/-- The decimal lies among the reals that round to the number; the ends do so if the significand
is even. -/
def readsBack (significand : Nat) (exponent : Int) (decimal : Decimal) : Bool :=
  let value := decimal.toRat
  if significand % 2 = 0 then
    lowerEnd significand exponent ≤ value && value ≤ upperEnd significand exponent
  else
    lowerEnd significand exponent < value && value < upperEnd significand exponent

/-- The least `k` with `value < 10^k`, looked for next to an estimate from the binary logarithm. -/
def decimalPoint (significand : Nat) (exponent : Int) : Int :=
  let value := (significand : Rat) * pow2 exponent
  let estimate := (((significand.log2 : Int) + exponent) * 30103).fdiv 100000
  let candidates := [estimate, estimate + 1, estimate + 2, estimate + 3]
  (candidates.find? fun k => value < Decimal.pow10 k).getD (estimate + 4)

/-- The neighbour of the value on the grid of `count` digits that reads back, if there is one; of
two the nearer, of two equally near the even one. -/
def onGrid? (significand : Nat) (exponent point : Int) (count : Nat) : Option Decimal :=
  let grid := point - count
  let value := (significand : Rat) * pow2 exponent
  let low := (value / Decimal.pow10 grid).floor.toNat
  let below : Decimal := ⟨low, grid⟩
  let above : Decimal := ⟨low + 1, grid⟩
  match readsBack significand exponent below, readsBack significand exponent above with
  | true, true =>
    let twice := value + value
    let sum := below.toRat + above.toRat
    if twice < sum then some below
    else if sum < twice then some above
    else some (if low % 2 = 0 then below else above)
  | true, false => some below
  | false, true => some above
  | false, false => none

/-- The fewest digits that read back to a number with a positive significand; all its digits if
seventeen do not suffice. -/
def shortest (significand : Nat) (exponent : Int) : Decimal :=
  let point := decimalPoint significand exponent
  match (List.range 17).findSome? fun n => onGrid? significand exponent point (n + 1) with
  | some decimal => decimal.strip 20
  | none =>
    if 0 ≤ exponent then ⟨significand * Nat.pow 2 exponent.toNat, 0⟩
    else ⟨significand * Nat.pow 5 (-exponent).toNat, exponent⟩

/-- Digits around the decimal point: positional while the point stands at most sixteen places
behind and less than four places before the first digit, with a signed exponent of at least two
digits otherwise. -/
def layout (decimal : Decimal) : String :=
  let digits := Nat.toDigits 10 decimal.digits
  let point : Int := digits.length + decimal.exponent
  let characters :=
    if -4 < point ∧ point ≤ 0 then
      '0' :: '.' :: List.replicate (-point).toNat '0' ++ digits
    else if 0 < point ∧ point ≤ 16 then
      if digits.length ≤ point.toNat then
        digits ++ List.replicate (point.toNat - digits.length) '0' ++ ['.', '0']
      else digits.take point.toNat ++ '.' :: digits.drop point.toNat
    else
      let power := point - 1
      let powerDigits := Nat.toDigits 10 power.natAbs
      let padding := if powerDigits.length < 2 then ['0'] else []
      let fraction := if digits.length = 1 then [] else '.' :: digits.drop 1
      digits.take 1 ++ fraction ++ 'e' :: (if power < 0 then '-' else '+') :: padding ++ powerDigits
  String.ofList characters

/-- The text of a number: the fewest digits that identify it, with a fraction or an exponent. -/
def text : Binary64 → String
  | nan => "nan"
  | infinity negative => if negative then "-inf" else "inf"
  | finite negative significand exponent =>
    let sign := if negative then "-" else ""
    if significand = 0 then sign ++ "0.0" else sign ++ layout (shortest significand exponent)

end Binary64

end TextGrammar
