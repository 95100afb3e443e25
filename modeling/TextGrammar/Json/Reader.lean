import TextGrammar.Json.Problem
import TextGrammar.Text.Hex
import TextGrammar.Value.Basic

/-!
Reading JSON texts. The names `NaN`, `Infinity` and `-Infinity` count as numbers; of entries with
one name the last one counts, in the place of the first. A reader returns what it read together
with the rest of the text, and a problem is reported with the rest that it stands before.
-/

namespace TextGrammar.Json

/-- Why reading stops: a problem before a rest of the text, or an integer with too many digits. -/
inductive Stop where
  | problem (problem : Problem) (rest : List Char)
  | tooManyDigits

def isSpace (c : Char) : Bool := c = ' ' || c = '\t' || c = '\n' || c = '\r'

def skipSpaces (text : List Char) : List Char := text.dropWhile isSpace

/-- The rest of a text behind a word that it begins with. -/
def dropWord? : List Char → List Char → Option (List Char)
  | [], text => some text
  | w :: word, c :: text => if w = c then dropWord? word text else none
  | _ :: _, [] => none

/-! ### Strings -/

/-- The character behind a backslash. -/
def escaped? : Char → Option Char
  | '"' => some '"'
  | '\\' => some '\\'
  | '/' => some '/'
  | 'b' => some '\x08'
  | 'f' => some '\x0c'
  | 'n' => some '\n'
  | 'r' => some '\r'
  | 't' => some '\t'
  | _ => none

/-- The code units of a string up to its closing quote; `opening` is the text from the opening
quote on. A code unit needs a character behind its four digits. -/
def stringUnits (opening : List Char) (text : List Char) : Except Stop (List Nat × List Char) :=
  match text with
  | [] => .error (.problem .unterminatedString opening)
  | '"' :: rest => .ok ([], rest)
  | ['\\'] => .error (.problem .unterminatedString opening)
  | '\\' :: 'u' :: digits =>
    match Text.hexNumber? 4 digits with
    | some unit =>
      if digits.length ≤ 4 then .error (.problem .badUnicodeEscape ('u' :: digits))
      else (stringUnits opening (digits.drop 4)).map fun (units, rest) => (unit :: units, rest)
    | none => .error (.problem .badUnicodeEscape ('u' :: digits))
  | '\\' :: c :: rest =>
    match escaped? c with
    | some plain =>
      (stringUnits opening rest).map fun (units, rest) => (plain.toNat :: units, rest)
    | none => .error (.problem .unknownEscape ('\\' :: c :: rest))
  | c :: rest =>
    if c.toNat < 0x20 then .error (.problem .controlCharacter (c :: rest))
    else (stringUnits opening rest).map fun (units, rest) => (c.toNat :: units, rest)
termination_by text.length
decreasing_by
  · rw [List.length_drop, List.length_cons, List.length_cons]; omega
  · rw [List.length_cons, List.length_cons]; omega
  · rw [List.length_cons]; omega

/-- The characters of code units: a high and a low surrogate make one character. A text holds no
lone surrogate, so each of them becomes the character for what cannot be shown; texts that differ in
lone surrogates only are not told apart. -/
def ofUnits : List Nat → List Char
  | high :: low :: rest =>
    if 0xD800 ≤ high ∧ high < 0xDC00 ∧ 0xDC00 ≤ low ∧ low < 0xE000 then
      Char.ofNat (0x10000 + (high - 0xD800) * 0x400 + (low - 0xDC00)) :: ofUnits rest
    else ofUnit high :: ofUnits (low :: rest)
  | [unit] => [ofUnit unit]
  | [] => []
where
  ofUnit (unit : Nat) : Char :=
    if 0xD800 ≤ unit ∧ unit < 0xE000 then '\uFFFD' else Char.ofNat unit

/-- A string behind its opening quote. -/
def string (rest : List Char) : Except Stop (String × List Char) :=
  (stringUnits ('"' :: rest) rest).map fun (units, rest) => (String.ofList (ofUnits units), rest)

/-! ### Numbers -/

/-- The parts of a numeral: the digits before the point, those behind it, and the exponent. -/
structure Numeral where
  negative : Bool
  whole : List Char
  fraction : Option (List Char)
  exponent : Option (Bool × List Char)

/-- The digits of an integer: a single zero, or digits that begin with another one. -/
def wholeDigits : List Char → List Char × List Char
  | '0' :: rest => (['0'], rest)
  | text => (text.takeWhile Char.isDigit, text.dropWhile Char.isDigit)

/-- A fraction if digits follow the point. -/
def fraction : List Char → Option (List Char) × List Char
  | '.' :: rest =>
    let digits := rest.takeWhile Char.isDigit
    if digits.isEmpty then (none, '.' :: rest) else (some digits, rest.dropWhile Char.isDigit)
  | text => (none, text)

/-- An exponent if digits follow its letter and sign. -/
def exponent : List Char → Option (Bool × List Char) × List Char
  | [] => (none, [])
  | c :: rest =>
    let (negative, unsigned) := TextGrammar.Numeral.takeSign rest
    let digits := unsigned.takeWhile Char.isDigit
    if (c = 'e' ∨ c = 'E') ∧ !digits.isEmpty then
      (some (negative, digits), unsigned.dropWhile Char.isDigit)
    else (none, c :: rest)

/-- The numeral that a text begins with. -/
def numeral? (text : List Char) : Option (Numeral × List Char) :=
  let (negative, unsigned) := match text with
    | '-' :: rest => (true, rest)
    | _ => (false, text)
  let (whole, rest) := wholeDigits unsigned
  if whole.isEmpty then none
  else
    let (fraction, rest) := fraction rest
    let (exponent, rest) := exponent rest
    some (⟨negative, whole, fraction, exponent⟩, rest)

/-- The number of a numeral: an integer if it has neither fraction nor exponent. -/
def Numeral.number (numeral : Numeral) : Except Stop Number :=
  match numeral.fraction, numeral.exponent with
  | none, none =>
    if TextGrammar.Numeral.maxDigits < numeral.whole.length then .error .tooManyDigits
    else
      let magnitude : Int := TextGrammar.Numeral.digitsValue numeral.whole
      .ok (.int (if numeral.negative then -magnitude else magnitude))
  | fraction, exponent =>
    let behind := fraction.getD []
    let (negative, powerDigits) := exponent.getD (false, [])
    let power : Int := TextGrammar.Numeral.digitsValue powerDigits
    .ok (.real (TextGrammar.Numeral.scaled numeral.negative
      (TextGrammar.Numeral.digitsValue (numeral.whole ++ behind))
      ((if negative then -power else power) - behind.length)))

/-! ### Values -/

/-- The words that stand for values. -/
def words : List (String × Value) :=
  [("null", .null), ("true", .bool true), ("false", .bool false), ("NaN", .real .nan),
   ("Infinity", .real (.infinity false)), ("-Infinity", .real (.infinity true))]

/-- A word or a number. -/
def plain (text : List Char) : Except Stop (Value × List Char) :=
  match words.findSome? fun (word, value) =>
    (dropWord? word.toList text).map fun rest => (value, rest) with
  | some found => .ok found
  | none => match numeral? text with
    | some (numeral, rest) => numeral.number.map fun number => (.number number, rest)
    | none => .error (.problem .expectedValue text)

mutual

/-- A value at the beginning of a text. -/
def value : Nat → List Char → Except Stop (Value × List Char)
  | 0, text => .error (.problem .expectedValue text)
  | fuel + 1, text => match text with
    | '"' :: rest => (string rest).map fun (text, rest) => (.str text, rest)
    | '[' :: rest => match skipSpaces rest with
      | ']' :: rest => .ok (.list [], rest)
      | rest => (items fuel rest).map fun (items, rest) => (.list items, rest)
    | '\x7b' :: rest => match skipSpaces rest with
      | '\x7d' :: rest => .ok (.map [], rest)
      | rest => (members fuel rest).map fun (entries, rest) => (.map (Fields.ofList entries), rest)
    | _ => plain text

/-- The items of a list up to its closing bracket, at least one. -/
def items : Nat → List Char → Except Stop (List Value × List Char)
  | 0, text => .error (.problem .expectedValue text)
  | fuel + 1, text => do
    let (item, rest) ← value fuel text
    match skipSpaces rest with
    | ']' :: rest => return ([item], rest)
    | ',' :: rest =>
      let (more, rest) ← items fuel (skipSpaces rest)
      return (item :: more, rest)
    | rest => throw (.problem .expectedComma rest)

/-- The entries of a map up to its closing brace, at least one. -/
def members : Nat → List Char → Except Stop (List (Scalar × Value) × List Char)
  | 0, text => .error (.problem .expectedName text)
  | fuel + 1, text => match text with
    | '"' :: rest => do
      let (name, rest) ← string rest
      match skipSpaces rest with
      | ':' :: rest =>
        let (content, rest) ← value fuel (skipSpaces rest)
        match skipSpaces rest with
        | '\x7d' :: rest => return ([(.str name, content)], rest)
        | ',' :: rest =>
          let (more, rest) ← members fuel (skipSpaces rest)
          return ((.str name, content) :: more, rest)
        | rest => throw (.problem .expectedComma rest)
      | rest => throw (.problem .expectedColon rest)
    | _ => .error (.problem .expectedName text)

end

/-- The value of a whole text. Every step of a reader takes a character or turns from a list to
its first item, so twice the length of the text bounds the steps. -/
def document (text : List Char) : Except Stop Value := do
  if text.head? = some '\uFEFF' then throw (.problem .byteOrderMark text)
  let (found, rest) ← value (2 * text.length + 3) (skipSpaces text)
  match skipSpaces rest with
  | [] => return found
  | rest => throw (.problem .extraData rest)

/-- The value that a JSON text denotes. -/
def read (text : String) : Except Error Value :=
  let characters := text.toList
  match document characters with
  | .ok found => .ok found
  | .error .tooManyDigits => .error .tooManyDigits
  | .error (.problem problem rest) =>
    .error (.malformed problem (.after (characters.take (characters.length - rest.length))))

end TextGrammar.Json
