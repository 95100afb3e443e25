import TextGrammar.Number.Rounding

/-!
Binary floating-point numbers with 53 significant bits, as exact data. Each operation is the exact
result over the rationals, rounded once to the nearest representable number, a tie to the even one.
-/

namespace TextGrammar

/-- `(-1)^negative * significand * 2^exponent`, an infinity, or no number at all. -/
inductive Binary64 where
  | finite (negative : Bool) (significand : Nat) (exponent : Int)
  | infinity (negative : Bool)
  | nan
deriving DecidableEq, Repr, Inhabited

namespace Binary64

/-- The exponent of the least positive number. -/
def minExponent : Int := -1074

/-- The exponent of the greatest finite number. -/
def maxExponent : Int := 971

/-- A power of two as a rational. -/
def pow2 (exponent : Int) : Rat :=
  if 0 ≤ exponent then (Nat.pow 2 exponent.toNat : Rat)
  else mkRat 1 (Nat.pow 2 (-exponent).toNat)

/-- The exact value of a finite number; zero for the others. -/
def toRat : Binary64 → Rat
  | finite negative significand exponent =>
    let magnitude := (significand : Rat) * pow2 exponent
    if negative then -magnitude else magnitude
  | _ => 0

/-- Zero with a sign. -/
def zero (negative : Bool) : Binary64 := finite negative 0 minExponent

instance : OfNat Binary64 0 := ⟨zero false⟩

def isNegative : Binary64 → Bool
  | finite negative .. | infinity negative => negative
  | nan => false

def isZero : Binary64 → Bool
  | finite _ significand _ => significand = 0
  | _ => false

/-- `num / den < 2^exponent`, compared exactly. -/
def below (num den : Nat) (exponent : Int) : Bool :=
  if 0 ≤ exponent then num < den * Nat.pow 2 exponent.toNat
  else num * Nat.pow 2 (-exponent).toNat < den

/-- The exponent of the last place of `num / den`: the least one, from `minExponent` up, at which
the quotient takes at most 53 bits. -/
def lastPlace (num den : Nat) : Int :=
  let estimate : Int := (num.log2 : Int) - den.log2 - 53
  max (if below num den (estimate + 53) then estimate else estimate + 1) minExponent

/-- The number nearest to `num / den`, with the given sign. -/
def ofQuotient (negative : Bool) (num den : Nat) : Binary64 :=
  if num = 0 then zero negative
  else
    let place := lastPlace num den
    let significand :=
      if 0 ≤ place then roundHalfEven num (den * Nat.pow 2 place.toNat)
      else roundHalfEven (num * Nat.pow 2 (-place).toNat) den
    let (significand, place) :=
      if significand = Nat.pow 2 53 then (Nat.pow 2 52, place + 1) else (significand, place)
    if maxExponent < place then infinity negative
    else if significand = 0 then zero negative
    else finite negative significand place

/-- The number nearest to a rational. -/
def ofRat (value : Rat) : Binary64 :=
  ofQuotient (value.num < 0) value.num.natAbs value.den

/-- The number nearest to an integer, unless that is infinite. -/
def ofInt? (value : Int) : Option Binary64 :=
  match ofQuotient (value < 0) value.natAbs 1 with
  | infinity _ => none
  | number => some number

def neg : Binary64 → Binary64
  | finite negative significand exponent => finite (!negative) significand exponent
  | infinity negative => infinity (!negative)
  | nan => nan

def add : Binary64 → Binary64 → Binary64
  | nan, _ => nan
  | _, nan => nan
  | infinity s, infinity t => if s = t then infinity s else nan
  | infinity s, finite .. => infinity s
  | finite .., infinity t => infinity t
  | finite s m d, finite t n e =>
    let sum := (finite s m d).toRat + (finite t n e).toRat
    if sum = 0 then zero (s && t) else ofRat sum

def sub (x y : Binary64) : Binary64 := add x (neg y)

def mul : Binary64 → Binary64 → Binary64
  | nan, _ => nan
  | _, nan => nan
  | infinity s, y => if y.isZero then nan else infinity (s != y.isNegative)
  | x, infinity t => if x.isZero then nan else infinity (x.isNegative != t)
  | finite s m d, finite t n e =>
    let product := (finite s m d).toRat * (finite t n e).toRat
    ofQuotient (s != t) product.num.natAbs product.den

def div : Binary64 → Binary64 → Binary64
  | nan, _ => nan
  | _, nan => nan
  | infinity _, infinity _ => nan
  | infinity s, finite t .. => infinity (s != t)
  | finite s .., infinity t => zero (s != t)
  | finite s m d, finite t n e =>
    if n = 0 then if m = 0 then nan else infinity (s != t)
    else
      let quotient := (finite s m d).toRat / (finite t n e).toRat
      ofQuotient (s != t) quotient.num.natAbs quotient.den

instance : Add Binary64 := ⟨add⟩
instance : Sub Binary64 := ⟨sub⟩
instance : Mul Binary64 := ⟨mul⟩
instance : Div Binary64 := ⟨div⟩
instance : Neg Binary64 := ⟨neg⟩

/-- How two exact values compare. -/
def compareRat (x y : Rat) : Ordering :=
  if x < y then .lt else if x = y then .eq else .gt

/-- How two numbers compare; nothing compares with `nan`. -/
def compare? : Binary64 → Binary64 → Option Ordering
  | nan, _ => none
  | _, nan => none
  | infinity s, infinity t => some (compare t.toNat s.toNat)
  | infinity s, finite .. => some (if s then .lt else .gt)
  | finite .., infinity t => some (if t then .gt else .lt)
  | finite s m d, finite t n e => some (compareRat (finite s m d).toRat (finite t n e).toRat)

instance : LT Binary64 := ⟨fun x y => compare? x y = some .lt⟩
instance : LE Binary64 := ⟨fun x y => compare? x y = some .lt ∨ compare? x y = some .eq⟩

instance (x y : Binary64) : Decidable (x < y) :=
  inferInstanceAs (Decidable (compare? x y = some .lt))

instance (x y : Binary64) : Decidable (x ≤ y) :=
  inferInstanceAs (Decidable (compare? x y = some .lt ∨ compare? x y = some .eq))

end Binary64

end TextGrammar
