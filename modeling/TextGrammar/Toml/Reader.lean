import TextGrammar.Document.Problem
import TextGrammar.Number.Numeral
import TextGrammar.Toml.Draft
import TextGrammar.Toml.Stamp
import TextGrammar.Toml.Text

/-!
Reading TOML documents. A reader returns what it read and the rest of the text.
-/

namespace TextGrammar.Toml

open DocumentProblem (require)

/-! ### Keys -/

/-- A character of names that stand without quotes. -/
def isBare (c : Char) : Bool := c.isAlphanum || c = '-' || c = '_'

/-- One name of a key. -/
def name? (text : List Char) : Option (String × List Char) :=
  let bare := text.takeWhile isBare
  if bare.isEmpty then (lineString? text).map fun (name, rest) => (String.ofList name, rest)
  else some (String.ofList bare, text.dropWhile isBare)

/-- The names of a key with points between them, and the rest behind blanks. -/
def key? : Nat → List Char → Option (Path × List Char)
  | 0, _ => none
  | fuel + 1, text => do
    let (name, rest) ← name? text
    match rest.dropWhile isBlank with
    | '.' :: rest => do
      let (more, rest) ← key? fuel (rest.dropWhile isBlank)
      return (name :: more, rest)
    | rest => return ([name], rest)

/-! ### Numbers -/

/-- Digits with single underscores between them, without the underscores, and the rest. -/
def digits (isDigit : Char → Bool) (behindDigit : Bool) : List Char → List Char × List Char
  | [] => ([], [])
  | c :: rest =>
    if isDigit c then
      let (more, rest) := digits isDigit true rest
      (c :: more, rest)
    else if behindDigit && c = '_' && rest.head?.any isDigit then digits isDigit false rest
    else ([], c :: rest)

/-- An integer to a base that a letter behind a zero names. -/
def based? (text : List Char) : Option (Nat × List Char) := do
  let (base, text) ← match text with
    | '0' :: 'x' :: text => some (16, text)
    | '0' :: 'o' :: text => some (8, text)
    | '0' :: 'b' :: text => some (2, text)
    | _ => none
  let (found, rest) := digits (fun c => (Text.hexValue? c).any (· < base)) false text
  if found.isEmpty then none
  else
    let values := found.filterMap Text.hexValue?
    some (values.foldl (fun number digit => number * base + digit) 0, rest)

/-- The part of a real number that a mark begins, with the mark, if digits follow. -/
def part (isMark : Char → Bool) (signed : Bool) (text : List Char) : List Char × List Char :=
  match text with
  | [] => ([], [])
  | c :: rest =>
    let (sign, unsigned) := match rest with
      | s :: unsigned => if signed && (s = '+' || s = '-') then ([s], unsigned) else ([], rest)
      | [] => ([], [])
    let (found, behind) := digits Char.isDigit false unsigned
    if isMark c && !found.isEmpty then (c :: sign ++ found, behind) else ([], text)

/-- The whole digits of a decimal number: a zero alone, or digits that begin with another one. -/
def wholeDigits (text : List Char) : List Char × List Char :=
  match text with
  | '0' :: rest => (['0'], rest)
  | _ => digits Char.isDigit false text

/-- A decimal number, real if it has a fraction or an exponent. -/
def decimal (text : List Char) : Except DocumentProblem (Value × List Char) := do
  let (negative, unsigned) := Numeral.takeSign text
  let (whole, rest) := wholeDigits unsigned
  if whole.isEmpty then throw .malformed
  let sign := if negative then ['-'] else []
  let (fraction, rest) := part (· = '.') false rest
  let (exponent, rest) := part (fun c => c = 'e' || c = 'E') true rest
  if fraction.isEmpty && exponent.isEmpty then
    match Numeral.integer? (sign ++ whole) with
    | some number => return (.int number, rest)
    | none => throw (.fault .notNumeral)
  else
    let value ← require (Numeral.real? (sign ++ whole ++ fraction ++ exponent))
    return (.real value, rest)

/-- The words that stand for values. -/
def words : List (String × Value) :=
  [("true", .bool true), ("false", .bool false),
   ("inf", .real (.infinity false)), ("+inf", .real (.infinity false)),
   ("-inf", .real (.infinity true)),
   ("nan", .real .nan), ("+nan", .real .nan), ("-nan", .real .nan)]

/-- A word, a date, a time or a number. -/
def plain (text : List Char) : Except DocumentProblem (Value × List Char) :=
  match words.find? fun entry => entry.1.toList.isPrefixOf text with
  | some (word, value) => .ok (value, text.drop word.length)
  | none => match stamp? text with
    | some (some stamp, rest) => .ok (.stamp stamp, rest)
    | some (none, _) => .error .malformed
    | none => match based? text with
      | some (number, rest) => .ok (.int number, rest)
      | none => decimal text

/-! ### Values -/

/-- The text behind a comment, which ends before the end of its line. -/
def skipComment? (text : List Char) : Option (List Char) :=
  match text with
  | '#' :: rest =>
    if (rest.takeWhile (· ≠ '\n')).any isForbidden then none
    else some (rest.dropWhile (· ≠ '\n'))
  | _ => some text

/-- The text behind blanks, ends of lines and comments. -/
def skipGap? : Nat → List Char → Option (List Char)
  | 0, text => some text
  | fuel + 1, text =>
    match text.dropWhile isGap with
    | '#' :: rest => (skipComment? ('#' :: rest)).bind (skipGap? fuel)
    | rest => some rest

/-- The sign between a key and its value, with the blanks behind it. -/
def skipEquals? : List Char → Option (List Char)
  | '=' :: rest => some (rest.dropWhile isBlank)
  | _ => none

mutual

/-- A value. -/
def value : Nat → List Char → Except DocumentProblem (Value × List Char)
  | 0, _ => .error .malformed
  | fuel + 1, text => match text with
    | '"' :: _ | '\'' :: _ => do
      let (found, rest) ← require (string? text)
      return (.str (String.ofList found), rest)
    | '[' :: rest => do
      let (items, rest) ← items fuel (← require (skipGap? fuel rest))
      return (.list items, rest)
    | '\x7b' :: rest => match rest.dropWhile isBlank with
      | '\x7d' :: rest => return (.map [], rest)
      | rest => do
        let (draft, rest) ← entries .empty fuel rest
        return (.map draft.content, rest)
    | _ => plain text

/-- The items of an array up to its closing bracket. -/
def items : Nat → List Char → Except DocumentProblem (List Value × List Char)
  | 0, _ => .error .malformed
  | fuel + 1, text => match text with
    | ']' :: rest => .ok ([], rest)
    | _ => do
      let (item, rest) ← value fuel text
      match ← require (skipGap? fuel rest) with
      | ',' :: rest => do
        let (more, rest) ← items fuel (← require (skipGap? fuel rest))
        return (item :: more, rest)
      | ']' :: rest => return ([item], rest)
      | _ => throw .malformed

/-- The entries of a table in braces, at least one, added to a draft. -/
def entries (draft : Draft) : Nat → List Char → Except DocumentProblem (Draft × List Char)
  | 0, _ => .error .malformed
  | fuel + 1, text => do
    let (key, rest) ← require (key? fuel text)
    let (content, rest) ← value fuel (← require (skipEquals? rest))
    let draft ← require (draft.entry? key content)
    match rest.dropWhile isBlank with
    | '\x7d' :: rest => return (draft, rest)
    | ',' :: rest => entries draft fuel (rest.dropWhile isBlank)
    | _ => throw .malformed

end

/-! ### Documents -/

/-- A header behind its opening brackets, up to its closing ones. -/
def header (closing text : List Char) : Except DocumentProblem (Path × List Char) := do
  let (path, rest) ← require (key? (text.length + 1) (text.dropWhile isBlank))
  if closing.isPrefixOf rest then return (path, rest.drop closing.length) else throw .malformed

/-- A statement at the beginning of a text, added to a draft: a header or an entry; there may be
none. -/
def statement (draft : Draft) (text : List Char) : Except DocumentProblem (Draft × List Char) :=
  match text with
  | '[' :: '[' :: rest => do
    let (path, rest) ← header [']', ']'] rest
    return (← require (draft.element? path), rest)
  | '[' :: rest => do
    let (path, rest) ← header [']'] rest
    return (← require (draft.table? path), rest)
  | [] | '\n' :: _ | '#' :: _ => return (draft, text)
  | _ => do
    let (key, rest) ← require (key? (text.length + 1) text)
    let (content, rest) ← value (2 * text.length + 2) (← require (skipEquals? rest))
    return (← require (draft.entry? key content), rest)

/-- The statements of a text, one on each line, added to a draft. -/
def statements (draft : Draft) : Nat → List Char → Except DocumentProblem Draft
  | 0, _ => .error .malformed
  | fuel + 1, text => do
    let (draft, rest) ← statement draft (text.dropWhile isBlank)
    match ← require (skipComment? (rest.dropWhile isBlank)) with
    | [] => return draft
    | '\n' :: rest => statements draft fuel rest
    | _ => throw .malformed

/-- The value of a text that is a document. -/
def read (text : String) : Except DocumentProblem Value := do
  let characters := text.toList
  let draft ← statements .empty (characters.length + 1) characters
  return .map draft.content

end TextGrammar.Toml
