/-!
Problems of JSON texts, and the places where they stand.
-/

namespace TextGrammar.Json

/-- What is wrong with a JSON text. -/
inductive Problem where
  | byteOrderMark
  | expectedValue
  | expectedName
  | expectedColon
  | expectedComma
  | unterminatedString
  | controlCharacter
  | unknownEscape
  | badUnicodeEscape
  | extraData
deriving DecidableEq, Repr

def Problem.text : Problem → String
  | byteOrderMark => "Unexpected UTF-8 BOM (decode using utf-8-sig)"
  | expectedValue => "Expecting value"
  | expectedName => "Expecting property name enclosed in double quotes"
  | expectedColon => "Expecting ':' delimiter"
  | expectedComma => "Expecting ',' delimiter"
  | unterminatedString => "Unterminated string starting at"
  | controlCharacter => "Invalid control character at"
  | unknownEscape => "Invalid \\escape"
  | badUnicodeEscape => "Invalid \\uXXXX escape"
  | extraData => "Extra data"

/-- A place in a text: its line and column from one, and the characters before it. -/
structure Place where
  line : Nat
  column : Nat
  offset : Nat
deriving DecidableEq, Repr

/-- The place after the given characters. -/
def Place.after (text : List Char) : Place where
  line := text.count '\n' + 1
  column := (text.reverse.takeWhile (· ≠ '\n')).length + 1
  offset := text.length

/-- Why a text is no JSON value: a problem at a place, or an integer with too many digits. -/
inductive Error where
  | malformed (problem : Problem) (place : Place)
  | tooManyDigits
deriving DecidableEq, Repr

/-- A problem and its place in words. -/
def describe (problem : Problem) (place : Place) : String :=
  s!"{problem.text}: line {place.line} column {place.column} (char {place.offset})"

end TextGrammar.Json
