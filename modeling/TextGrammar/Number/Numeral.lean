import TextGrammar.Fault
import TextGrammar.Number.Binary64
import TextGrammar.Text.Blank
import TextGrammar.Text.Digit

/-!
Numerals: the texts that denote integers and real numbers. Digits of any script count, single
underscores may stand between digits, and blanks may stand around the numeral.
-/

namespace TextGrammar.Numeral

/-- Integers are read and written up to this many digits. -/
def maxDigits : Nat := 4300

/-- Decimal digits of any script become ASCII digits; other characters beyond ASCII become a
character that no numeral holds. -/
def toAscii (c : Char) : Char :=
  if c.toNat < 128 then c
  else match Text.decimalValue? c with
    | some value => Char.ofNat (48 + value)
    | none => '?'

/-- The text without underscores, if each of them stands between two digits. -/
def dropUnderscores : Option Char → List Char → Option (List Char)
  | last, [] => if last = some '_' then none else some []
  | last, c :: rest =>
    if c = '_' then
      if last.any Char.isDigit then dropUnderscores (some c) rest else none
    else if last = some '_' && !c.isDigit then none
    else (dropUnderscores (some c) rest).map (c :: ·)

/-- The number that ASCII digits denote. -/
def digitsValue (digits : List Char) : Nat :=
  digits.foldl (fun value digit => value * 10 + (digit.toNat - 48)) 0

/-- Takes a sign off the front. -/
def takeSign : List Char → Bool × List Char
  | '-' :: rest => (true, rest)
  | '+' :: rest => (false, rest)
  | text => (false, text)

/-- The integer that a text denotes. -/
def integer? (text : List Char) : Option Int := do
  let plain ← dropUnderscores none ((Text.trimBy Text.isNumeralBlank text).map toAscii)
  let (negative, digits) := takeSign plain
  if digits.isEmpty || !digits.all Char.isDigit || maxDigits < digits.length then none
  else
    let magnitude : Int := digitsValue digits
    some (if negative then -magnitude else magnitude)

/-- The numeral of an integer, unless it has too many digits. -/
def ofInt? (value : Int) : Option String :=
  if (toString value.natAbs).length ≤ maxDigits then some (toString value) else none

/-- The text of an integer, which must not have too many digits. -/
def text (value : Int) : Except Fault String :=
  match ofInt? value with
  | some text => .ok text
  | none => .error .notNumeral

/-- The number nearest to `digits * 10^exponent`; exponents far out of range are not computed. -/
def scaled (negative : Bool) (digits : Nat) (exponent : Int) : Binary64 :=
  let size : Int := digits.log2 * 30103 / 100000
  if digits = 0 then .zero negative
  else if 400 < exponent + size then .infinity negative
  else if exponent + size < -400 then .zero negative
  else if 0 ≤ exponent then .ofQuotient negative (digits * Nat.pow 10 exponent.toNat) 1
  else .ofQuotient negative digits (Nat.pow 10 (-exponent).toNat)

/-- The names of the numbers that have no digits, in lower case. -/
def special? (negative : Bool) (name : List Char) : Option Binary64 :=
  let name := String.ofList (name.map Char.toLower)
  if name = "inf" ∨ name = "infinity" then some (.infinity negative)
  else if name = "nan" then some .nan
  else none

/-- The exponent part of a numeral: a letter, a sign and digits. -/
def exponent? : List Char → Option Int
  | [] => some 0
  | c :: rest =>
    if c = 'e' ∨ c = 'E' then
      let (negative, digits) := takeSign rest
      if digits.isEmpty || !digits.all Char.isDigit then none
      else
        let magnitude : Int := digitsValue digits
        some (if negative then -magnitude else magnitude)
    else none

/-- The real number that a text denotes. -/
def real? (text : List Char) : Option Binary64 := do
  let plain ← dropUnderscores none ((Text.trimBy Text.isNumeralBlank text).map toAscii)
  let (negative, unsigned) := takeSign plain
  match special? negative unsigned with
  | some number => some number
  | none =>
    let whole := unsigned.takeWhile Char.isDigit
    let rest := unsigned.dropWhile Char.isDigit
    let (fraction, rest) := match rest with
      | '.' :: rest => (rest.takeWhile Char.isDigit, rest.dropWhile Char.isDigit)
      | rest => ([], rest)
    if whole.isEmpty && fraction.isEmpty then none
    else
      let exponent ← exponent? rest
      some (scaled negative (digitsValue (whole ++ fraction)) (exponent - fraction.length))

end TextGrammar.Numeral
