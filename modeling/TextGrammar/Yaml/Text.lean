import TextGrammar.Text.Hex
import TextGrammar.Yaml.Cursor

/-!
The texts of scalars: plain ones, which end where the syntax goes on, and quoted ones. Ends of
lines inside a scalar are folded.
-/

namespace TextGrammar.Yaml

/-! ### Plain scalars -/

/-- A plain scalar may begin with the first character of a text. Inside a collection in brackets
fewer characters may. -/
def beginsPlain (inBrackets : Bool) : List Char → Bool
  | [] => false
  | c :: rest =>
    !(isBlank c || isBreak c || "-?:,[]\x7b\x7d#&*!|>'\"%@`".contains c) ||
      !atGap rest && (c = '-' || !inBrackets && (c = '?' || c = ':'))

/-- A plain scalar does not go on with the text. -/
def endsPlain (inBrackets : Bool) : List Char → Bool
  | [] => true
  | c :: rest =>
    isBlank c || isBreak c ||
      c = ':' && (atGap rest || inBrackets && rest.head?.any (",[]\x7b\x7d".contains ·)) ||
      inBrackets && ",?[]\x7b\x7d".contains c

/-- The characters of a plain scalar up to a blank, and the rest. -/
def plainWord (inBrackets : Bool) : List Char → List Char × List Char
  | [] => ([], [])
  | c :: rest =>
    if endsPlain inBrackets (c :: rest) then ([], c :: rest)
    else
      let (word, rest) := plainWord inBrackets rest
      (c :: word, rest)

/-- What stands between two words of a plain scalar, and the place behind it. -/
def plainGap (cursor : Cursor) : List Char × Cursor :=
  let spaces := cursor.rest.takeWhile (· = ' ')
  match cursor.move spaces.length with
  | ⟨c :: rest, line, column, fresh⟩ =>
    if isBreak c then
      let (ends, cursor) := lineEnds (· = ' ') (line + 1) 0 rest
      (if cursor.atEnd then [] else folded c ends, cursor)
    else (spaces, ⟨c :: rest, line, column, fresh⟩)
  | cursor => (spaces, cursor)

/-- A plain scalar and the place behind it. Its further lines stand at a column of `least` or
more unless it is inside brackets. -/
def plain (inBrackets : Bool) (least : Nat) : Nat → Cursor → List Char × Cursor
  | 0, cursor => ([], cursor)
  | fuel + 1, cursor =>
    let (word, rest) := plainWord inBrackets cursor.rest
    if word.isEmpty || cursor.rest.head? = some '#' then ([], cursor)
    else
      let (gap, after) := plainGap ⟨rest, cursor.line, cursor.column + word.length, false⟩
      if gap.isEmpty || after.rest.head? = some '#' || !inBrackets && after.column < least then
        (word, after)
      else
        let (more, behind) := plain inBrackets least fuel after
        if more.isEmpty then (word, after) else (word ++ gap ++ more, behind)

/-! ### Quoted scalars -/

/-- The character that a letter behind a backslash stands for. -/
def escaped? : Char → Option Char
  | '0' => some '\x00'
  | 'a' => some '\x07'
  | 'b' => some '\x08'
  | 't' | '\t' => some '\t'
  | 'n' => some '\n'
  | 'v' => some '\x0b'
  | 'f' => some '\x0c'
  | 'r' => some '\r'
  | 'e' => some '\x1b'
  | ' ' => some ' '
  | '"' => some '"'
  | '\\' => some '\\'
  | '/' => some '/'
  | 'N' => some '\x85'
  | '_' => some '\xa0'
  | 'L' => some '\u2028'
  | 'P' => some '\u2029'
  | _ => none

/-- How many hexadecimal digits follow a letter behind a backslash. -/
def codeWidth? : Char → Option Nat
  | 'x' => some 2
  | 'u' => some 4
  | 'U' => some 8
  | _ => none

/-- The part of a quoted scalar that a backslash begins, the place being behind the backslash. -/
def escape? (cursor : Cursor) : Option (List Char × Cursor) :=
  match cursor.rest with
  | [] => none
  | c :: rest => match escaped? c, codeWidth? c with
    | some plain, _ => some ([plain], cursor.move 1)
    | none, some width =>
      (Text.hexChar? width rest).map fun character => ([character], cursor.move (width + 1))
    | none, none =>
      if isBreak c then
        let (ends, after) := lineEnds isBlank (cursor.line + 1) 0 rest
        if after.atEnd then none else some (ends, after)
      else none

/-- The blanks and ends of lines at a place inside a quoted scalar. -/
def quotedGap? (cursor : Cursor) : Option (List Char × Cursor) :=
  let blanks := cursor.rest.takeWhile isBlank
  match cursor.move blanks.length with
  | ⟨c :: rest, line, column, fresh⟩ =>
    if isBreak c then
      let (ends, after) := lineEnds isBlank (line + 1) 0 rest
      if after.atEnd then none else some (folded c ends, after)
    else some (blanks, ⟨c :: rest, line, column, fresh⟩)
  | _ => none

/-- A quoted scalar behind its opening quote, and the place behind its closing one. Between double
quotes a backslash begins an escape, between single ones a quote is written twice. -/
def quoted? (quote : Char) : Nat → Cursor → Option (List Char × Cursor)
  | 0, _ => none
  | fuel + 1, cursor =>
    let goOn (part : List Char) (after : Cursor) : Option (List Char × Cursor) :=
      (quoted? quote fuel after).map fun (more, behind) => (part ++ more, behind)
    match cursor.rest with
    | [] => none
    | c :: rest =>
      if c = quote then
        if quote = '\'' ∧ rest.head? = some '\'' then goOn ['\''] (cursor.move 2)
        else some ([], { cursor.move 1 with fresh := false })
      else if quote = '"' ∧ c = '\\' then do
        let (part, after) ← escape? (cursor.move 1)
        goOn part after
      else if isBlank c || isBreak c then do
        let (part, after) ← quotedGap? cursor
        goOn part after
      else goOn [c] (cursor.move 1)

end TextGrammar.Yaml
