import TextGrammar.Number.Numeral
import TextGrammar.Number.Shortest

/-!
Numbers of documents: integers of any size and binary floating-point numbers. Arithmetic between
integers is exact, with a floating-point number on either side it is done there, and comparison is
always exact.
-/

namespace TextGrammar

/-- An integer of any size or a binary floating-point number. -/
inductive Number where
  | int (value : Int)
  | real (value : Binary64)
deriving DecidableEq, Repr

namespace Number

/-- The nearest binary floating-point number. -/
def toBinary64 : Number → Except Fault Binary64
  | int value => match Binary64.ofInt? value with
    | some number => .ok number
    | none => .error .tooLarge
  | real value => .ok value

def isZero : Number → Bool
  | int value => value = 0
  | real value => value.isZero

def isNaN : Number → Bool
  | real .nan => true
  | _ => false

/-- An operation that is exact between integers and done in floating point otherwise. -/
def lift (exact : Int → Int → Int) (rounded : Binary64 → Binary64 → Binary64) :
    Number → Number → Except Fault Number
  | int x, int y => .ok (int (exact x y))
  | x, y => do
    let x ← x.toBinary64
    let y ← y.toBinary64
    return real (rounded x y)

def add : Number → Number → Except Fault Number := lift (· + ·) Binary64.add

def sub : Number → Number → Except Fault Number := lift (· - ·) Binary64.sub

def mul : Number → Number → Except Fault Number := lift (· * ·) Binary64.mul

/-- The quotient as a floating-point number; that of two integers is rounded once. -/
def div : Number → Number → Except Fault Binary64
  | int x, int y =>
    match Binary64.ofQuotient ((x < 0) != (y < 0)) x.natAbs y.natAbs with
    | .infinity _ => .error .tooLarge
    | quotient => .ok quotient
  | x, y => do
    let x ← x.toBinary64
    let y ← y.toBinary64
    return Binary64.div x y

/-- How two numbers compare, exactly; nothing compares with `nan`. -/
def compare? : Number → Number → Option Ordering
  | int x, int y => some (compare x y)
  | real x, real y => Binary64.compare? x y
  | int _, real .nan => none
  | int _, real (.infinity negative) => some (if negative then .gt else .lt)
  | int x, real y => some (Binary64.compareRat x y.toRat)
  | real .nan, int _ => none
  | real (.infinity negative), int _ => some (if negative then .lt else .gt)
  | real x, int y => some (Binary64.compareRat x.toRat y)

/-- An integer made of the exact value of a number by rounding it some way. -/
def toIntBy (round : Rat → Int) : Number → Except Fault Int
  | int value => .ok value
  | real .nan => .error .undefined
  | real (.infinity _) => .error .infinite
  | real value => .ok (round value.toRat)

/-- The least integer that is not below the number. -/
def ceil : Number → Except Fault Int := toIntBy Rat.ceil

/-- The greatest integer that is not above the number. -/
def floor : Number → Except Fault Int := toIntBy Rat.floor

/-- The integer part of the number. -/
def truncate : Number → Except Fault Int := toIntBy fun value => value.num.tdiv value.den

/-- The text of a number. -/
def text : Number → Except Fault String
  | int value => Numeral.text value
  | real value => .ok value.text

end Number

end TextGrammar
