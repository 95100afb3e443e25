import TextGrammar.Condition.Problem
import TextGrammar.Number.Numeral

/-!
From characters to tokens. A lexeme is a token together with the characters it was read from;
blanks stand between lexemes. Behind a dot a word may begin with a digit.
-/

namespace TextGrammar.Condition

/-- A token, the position of its first character and that behind its last one. -/
structure Lexeme where
  token : Token
  start : Nat
  stop : Nat
deriving DecidableEq, Repr

/-- A character of words. -/
def isWordChar (c : Char) : Bool := Text.isAlphanumeric c || c = '_' || c = '$'

/-- A character that words begin with, except behind a dot. -/
def isWordStart (c : Char) : Bool := Text.isLetter c || c = '_' || c = '$'

/-- The character that stands for itself or another one behind a backslash. -/
def unescape (c : Char) : Char :=
  if c = 'n' then '\n' else if c = 't' then '\t' else if c = 'r' then '\r' else c

/-- The characters of a string up to its closing quote, and how many characters were read, the
quote included. -/
def stringBody (quote : Char) : List Char → Option (List Char × Nat)
  | [] => none
  | '\\' :: c :: rest =>
    (stringBody quote rest).map fun (characters, count) => (unescape c :: characters, count + 2)
  | c :: rest =>
    if c = quote then some ([], 1)
    else (stringBody quote rest).map fun (characters, count) => (c :: characters, count + 1)

/-- Digits with a fraction behind a point if a digit follows the point. -/
def numberLexeme (text : List Char) : List Char :=
  let whole := text.takeWhile Text.isDigit
  match text.dropWhile Text.isDigit with
  | '.' :: c :: rest =>
    if Text.isDigit c then whole ++ '.' :: (c :: rest).takeWhile Text.isDigit else whole
  | _ => whole

/-- The number that a lexeme denotes. -/
def numberOf (lexeme : List Char) : Except Fault Number :=
  if lexeme.contains '.' then
    match Numeral.real? lexeme with
    | some value => .ok (.real value)
    | none => .error .notNumeral
  else
    match Numeral.integer? lexeme with
    | some value => .ok (.int value)
    | none => .error .notNumeral

/-- The tokens of one character. -/
def single? : Char → Option Token
  | '.' => some .dot
  | '[' => some .openBracket
  | ']' => some .closeBracket
  | '(' => some .openParen
  | ')' => some .closeParen
  | '!' => some .bang
  | '-' => some .minus
  | _ => none

/-- An operator, a connective or a token of one character at the beginning of a text, and its
length. -/
def symbol? (text : List Char) : Option (Token × Nat) :=
  match Operator.all.find? fun operator => operator.text.toList.isPrefixOf text with
  | some operator => some (.compare operator, operator.text.length)
  | none => match text with
    | '&' :: '&' :: _ => some (.and, 2)
    | '|' :: '|' :: _ => some (.or, 2)
    | c :: _ => (single? c).map fun token => (token, 1)
    | [] => none

/-- Why reading tokens stops: a problem of the text, or digits that denote no number. -/
inductive Stop where
  | problem (problem : Problem)
  | fault (fault : Fault)
deriving DecidableEq, Repr

/-- The token that a text begins with, its first character being no blank, and how many
characters it takes. -/
def first (afterDot : Bool) (c : Char) (rest : List Char) : Except Stop (Token × Nat) :=
  if c = '\'' ∨ c = '"' then
    match stringBody c rest with
    | some (characters, count) => .ok (.string (String.ofList characters), count + 1)
    | none => .error (.problem .unterminatedString)
  else if isWordStart c || afterDot && isWordChar c then
    let name := c :: rest.takeWhile isWordChar
    .ok (.word (String.ofList name), name.length)
  else if Text.isDigit c then
    let lexeme := numberLexeme (c :: rest)
    match numberOf lexeme with
    | .ok value => .ok (.number value, lexeme.length)
    | .error reason => .error (.fault reason)
  else match symbol? (c :: rest) with
    | some found => .ok found
    | none => .error (.problem (.unexpectedCharacter c))

/-- The lexemes of a text that begins at a position, behind a dot or not. -/
def lexemesFrom (position : Nat) (afterDot : Bool) :
    List Char → Except (Stop × Nat) (List Lexeme)
  | [] => .ok []
  | c :: rest =>
    if Text.isBlank c then lexemesFrom (position + 1) afterDot rest
    else match first afterDot c rest with
      | .error stop => .error (stop, position)
      | .ok (token, count) =>
        match lexemesFrom (position + count) (token = .dot) (rest.drop (count - 1)) with
        | .error stop => .error stop
        | .ok more => .ok (⟨token, position, position + count⟩ :: more)
termination_by text => text.length

/-- The lexemes of a text. -/
def lexemes (text : List Char) : Except (Stop × Nat) (List Lexeme) := lexemesFrom 0 false text

end TextGrammar.Condition
