import TextGrammar.Text.Hex

/-!
Strings of TOML: basic ones with escapes, literal ones without, on one line or on several. A reader
returns what it read and the rest of the text.
-/

namespace TextGrammar.Toml

/-- A blank between the parts of a line. -/
def isBlank (c : Char) : Bool := c = ' ' || c = '\t'

/-- A blank or the end of a line. -/
def isGap (c : Char) : Bool := isBlank c || c = '\n'

/-- A character that neither strings nor comments hold. -/
def isForbidden (c : Char) : Bool := (c.toNat < 0x20 || c.toNat = 0x7F) && c ≠ '\t'

/-- A character that strings do not hold; those on several lines hold ends of lines. -/
def isOutside (multiline : Bool) (c : Char) : Bool := isForbidden c && !(multiline && c = '\n')

/-- The character that a letter behind a backslash stands for. -/
def escaped? : Char → Option Char
  | 'b' => some '\x08'
  | 't' => some '\t'
  | 'n' => some '\n'
  | 'f' => some '\x0c'
  | 'r' => some '\r'
  | '"' => some '"'
  | '\\' => some '\\'
  | _ => none

/-- The text behind a backslash that ends its line: blanks and ends of lines are left out. -/
def joined? (text : List Char) : Option (List Char) :=
  match text.dropWhile isBlank with
  | [] => some []
  | '\n' :: rest => some (rest.dropWhile isGap)
  | _ => none

/-- An escape behind its backslash. -/
def escape? (multiline : Bool) (text : List Char) : Option (List Char × List Char) :=
  match text with
  | [] => none
  | 'u' :: rest => (Text.hexChar? 4 rest).map fun c => ([c], rest.drop 4)
  | 'U' :: rest => (Text.hexChar? 8 rest).map fun c => ([c], rest.drop 8)
  | c :: rest =>
    if multiline && isGap c then (joined? text).map fun rest => ([], rest)
    else (escaped? c).map fun plain => ([plain], rest)

/-- A basic string behind its opening quotes. -/
def basic? (multiline : Bool) : Nat → List Char → Option (List Char × List Char)
  | 0, _ => none
  | fuel + 1, text =>
    let goOn (part rest : List Char) : Option (List Char × List Char) :=
      (basic? multiline fuel rest).map fun (more, rest) => (part ++ more, rest)
    match text with
    | [] => none
    | '"' :: rest =>
      if !multiline then some ([], rest)
      else match rest with
        | '"' :: '"' :: rest => some ([], rest)
        | _ => goOn ['"'] rest
    | '\\' :: rest => do
      let (part, rest) ← escape? multiline rest
      goOn part rest
    | c :: rest => if isOutside multiline c then none else goOn [c] rest

/-- A literal string behind its opening quotes. -/
def literal? (multiline : Bool) : List Char → Option (List Char × List Char)
  | [] => none
  | '\'' :: rest =>
    if !multiline then some ([], rest)
    else match rest with
      | '\'' :: '\'' :: rest => some ([], rest)
      | _ => (literal? multiline rest).map fun (more, rest) => ('\'' :: more, rest)
  | c :: rest =>
    if isOutside multiline c then none
    else (literal? multiline rest).map fun (more, rest) => (c :: more, rest)

/-- Up to two more quotes at the end of a string on several lines belong to it. -/
def withQuotes (quote : Char) : List Char × List Char → List Char × List Char
  | (text, rest) =>
    let quotes := (rest.take 2).takeWhile (· = quote)
    (text ++ quotes, rest.drop quotes.length)

/-- A string on one line. -/
def lineString? : List Char → Option (List Char × List Char)
  | '"' :: rest => basic? false (rest.length + 1) rest
  | '\'' :: rest => literal? false rest
  | _ => none

/-- The text behind an end of line at its beginning. -/
def dropLineEnd : List Char → List Char
  | '\n' :: rest => rest
  | text => text

/-- A string, on one line or on several. -/
def string? : List Char → Option (List Char × List Char)
  | '"' :: '"' :: '"' :: rest =>
    (basic? true (rest.length + 1) (dropLineEnd rest)).map (withQuotes '"')
  | '\'' :: '\'' :: '\'' :: rest => (literal? true (dropLineEnd rest)).map (withQuotes '\'')
  | text => lineString? text

end TextGrammar.Toml
