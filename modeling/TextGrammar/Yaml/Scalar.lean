import TextGrammar.Document.Problem
import TextGrammar.Number.Numeral
import TextGrammar.Text.Hex
import TextGrammar.Text.Split
import TextGrammar.Value.Basic
import TextGrammar.Yaml.Stamp

/-!
Scalars of YAML 1.1: the values that plain scalars stand for. Words for null and for the booleans
come in three cases; numerals may hold underscores, and digits behind colons count to base sixty.
-/

namespace TextGrammar.Yaml

/-- A word in lower case, with a capital, and in upper case. -/
def threeCases (word : String) : List String := [word, word.capitalize, word.toUpper]

/-- The words that stand for values. -/
def words : List (String × Scalar) :=
  [("", .null), ("~", .null)] ++ (threeCases "null").map (·, .null) ++
  (["yes", "true", "on"].flatMap threeCases).map (·, .bool true) ++
  (["no", "false", "off"].flatMap threeCases).map (·, .bool false)

/-- The value of a word. -/
def word? (text : String) : Option Scalar :=
  (words.find? fun entry => entry.1 = text).map Prod.snd

/-! ### Numerals -/

def isDigitOrMark (c : Char) : Bool := c.isDigit || c = '_'

/-- A part behind a colon: one digit, or two digits below sixty. -/
def isSixtieth : List Char → Bool
  | [c] => c.isDigit
  | [c, d] => '0' ≤ c && c ≤ '5' && d.isDigit
  | _ => false

/-- Digits, the first of which counts, behind a first character of a class. -/
def isDigits (first : Char → Bool) : List Char → Bool
  | [] => false
  | c :: rest => first c && rest.all isDigitOrMark

/-- A digit other than zero. -/
def isLeading (c : Char) : Bool := c.isDigit && c ≠ '0'

/-- The digits of a notation to a base that is a power of two; there may be none. -/
def digitsTo (base : Nat) (text : List Char) : Option Nat := do
  let values ← (text.filter (· ≠ '_')).mapM Text.hexValue?
  if values.all (· < base) then some (values.foldl (fun number digit => number * base + digit) 0)
  else none

/-- The outcome of digits that a prefix announces: at least one of them must be no underscore. -/
def announced (base : Nat) (text : List Char) : Option (Except Fault Nat) := do
  if text.isEmpty then none
  let number ← digitsTo base text
  some (if text.all (· = '_') then .error .notNumeral else .ok number)

/-- The value of decimal digits, of which there may not be too many. -/
def decimal (digits : List Char) : Except Fault Nat :=
  match Numeral.integer? (digits.filter (· ≠ '_')) with
  | some number => .ok number.toNat
  | none => .error .notNumeral

/-- The value of parts to base sixty. -/
def sixties (parts : List (List Char)) : Except Fault Nat :=
  parts.foldlM (fun number part => do return number * 60 + (← decimal part)) 0

/-- The magnitude of an unsigned integer: binary, octal, hexadecimal, decimal, or to base
sixty. -/
def magnitude? (text : List Char) : Option (Except Fault Nat) :=
  match text with
  | ['0'] => some (.ok 0)
  | '0' :: 'b' :: digits => announced 2 digits
  | '0' :: 'x' :: digits => announced 16 digits
  | '0' :: digits => (digitsTo 8 digits).map .ok
  | _ =>
    if isDigits isLeading text then some (decimal text)
    else match Text.splitAt ':' text with
      | first :: part :: parts =>
        if isDigits isLeading first && (part :: parts).all isSixtieth then
          some (sixties (first :: part :: parts))
        else none
      | _ => none

/-- The integer that a scalar denotes, if it has the form of one. -/
def integer? (text : List Char) : Option (Except Fault Int) :=
  let (negative, unsigned) := Numeral.takeSign text
  (magnitude? unsigned).map fun outcome =>
    outcome.map fun number => if negative then -(number : Int) else number

/-- The exponent of a real number has a sign. -/
def isExponent : List Char → Bool
  | [] => true
  | c :: sign :: digits =>
    (c = 'e' || c = 'E') && (sign = '+' || sign = '-') && !digits.isEmpty && digits.all Char.isDigit
  | _ => false

/-- What follows the point of a real number: digits and an exponent. -/
def isFraction (text : List Char) : Bool := isExponent (text.dropWhile isDigitOrMark)

/-- A real number written with a point; a sign needs a digit before the point. -/
def isPointed (text : List Char) : Bool :=
  match text with
  | '.' :: c :: rest => c.isDigit && isFraction (c :: rest)
  | _ =>
    let (_, unsigned) := Numeral.takeSign text
    match unsigned.dropWhile isDigitOrMark with
    | '.' :: rest => isDigits Char.isDigit (unsigned.takeWhile isDigitOrMark) && isFraction rest
    | _ => false

/-- The sum of parts to base sixty from the last one to the first. -/
def sixtiesReal (parts : List Binary64) : Binary64 :=
  (parts.reverse.foldl (fun (sum, base) part =>
    (sum.add (part.mul ((Binary64.ofInt? base).getD .nan)), base * 60))
    (Binary64.zero false, (1 : Int))).1

/-- The real number to base sixty that an unsigned text denotes: a point ends the last part. -/
def sixtyPointed? (text : List Char) : Option Binary64 :=
  match Text.splitAt ':' text with
  | first :: part :: parts =>
    let all := part :: parts
    let last := all.getLastD []
    let fraction := last.dropWhile (· ≠ '.')
    if isDigits Char.isDigit first && all.dropLast.all isSixtieth &&
        isSixtieth (last.takeWhile (· ≠ '.')) && fraction.head? = some '.' &&
        (fraction.drop 1).all isDigitOrMark then
      ((first :: all).mapM fun part => Numeral.real? (part.filter (· ≠ '_'))).map sixtiesReal
    else none
  | _ => none

/-- The real numbers that have no digits. -/
def specials : List (String × Binary64) :=
  (threeCases "inf").flatMap (fun name =>
    [("." ++ name, .infinity false), ("+." ++ name, .infinity false),
     ("-." ++ name, .infinity true)]) ++
  [(".nan", .nan), (".NaN", .nan), (".NAN", .nan)]

/-- The real number that a scalar denotes, if it has the form of one. -/
def real? (text : List Char) : Option Binary64 :=
  match specials.find? fun entry => entry.1.toList = text with
  | some entry => some entry.2
  | none =>
    if isPointed text then Numeral.real? (text.filter (· ≠ '_'))
    else
      let (negative, unsigned) := Numeral.takeSign text
      (sixtyPointed? unsigned).map fun value => if negative then value.neg else value

/-- The value of a plain scalar; what has no other form is a text. -/
def plainValue (text : List Char) : Except DocumentProblem Scalar :=
  match word? (String.ofList text) with
  | some value => .ok value
  | none => match real? text with
    | some value => .ok (.number (.real value))
    | none => match integer? text with
      | some (.ok value) => .ok (.number (.int value))
      | some (.error reason) => .error (.fault reason)
      | none => match stamp? text with
        | some (.ok value) => .ok (.stamp value)
        | some (.error reason) => .error (.fault reason)
        | none =>
          if text = ['='] ∨ text = ['<', '<'] then .error .malformed
          else .ok (.str (String.ofList text))

end TextGrammar.Yaml
