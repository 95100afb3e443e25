/-!
Places in a YAML text. Lines and columns matter: a deeper column makes a part of what stands
above, and a collection may begin only where a line or an entry does.
-/

namespace TextGrammar.Yaml

/-- The text from a place on, the line and the column of the place, and whether a collection may
begin there. -/
structure Cursor where
  rest : List Char
  line : Nat
  column : Nat
  fresh : Bool
deriving Repr

/-- The characters that end a line. -/
def isBreak (c : Char) : Bool := c = '\n' || c = '\x85' || c = '\u2028' || c = '\u2029'

/-- A blank inside a line. -/
def isBlank (c : Char) : Bool := c = ' ' || c = '\t'

/-- Nothing, a blank or the end of a line comes next. -/
def atGap : List Char → Bool
  | [] => true
  | c :: _ => isBlank c || isBreak c

/-- A line that begins or ends a document comes next. -/
def atMarker : List Char → Bool
  | '-' :: '-' :: '-' :: rest => atGap rest
  | '.' :: '.' :: '.' :: rest => atGap rest
  | _ => false

/-- The characters that documents may hold. -/
def isAllowed (c : Char) : Bool :=
  let code := c.toNat
  c = '\t' || c = '\n' || c = '\r' || 0x20 ≤ code && code ≤ 0x7E || code = 0x85 ||
    0xA0 ≤ code && code ≤ 0xFFFD || 0x10000 ≤ code

namespace Cursor

/-- The place at the beginning of a text. -/
def start (text : List Char) : Cursor := ⟨text, 0, 0, true⟩

/-- The document ends here. -/
def atEnd (cursor : Cursor) : Bool :=
  cursor.rest.isEmpty || cursor.column = 0 && atMarker cursor.rest

/-- The place behind some characters of the same line. -/
def move (cursor : Cursor) (count : Nat) : Cursor :=
  ⟨cursor.rest.drop count, cursor.line, cursor.column + count, false⟩

/-- The next place that is no space, no end of a line and no comment. -/
def skipFrom (inComment fresh : Bool) (line column : Nat) : List Char → Cursor
  | [] => ⟨[], line, column, fresh⟩
  | c :: rest =>
    if isBreak c then skipFrom false true (line + 1) 0 rest
    else if inComment || c = ' ' then skipFrom inComment fresh line (column + 1) rest
    else if c = '#' then skipFrom true fresh line (column + 1) rest
    else ⟨c :: rest, line, column, fresh⟩

/-- The place of the next character that counts. -/
def skip (cursor : Cursor) : Cursor :=
  skipFrom false cursor.fresh cursor.line cursor.column cursor.rest

end Cursor

/-- The ends of lines behind a first one, over blanks, up to a character that counts or a line that
begins or ends a document. -/
def lineEnds (blank : Char → Bool) (line column : Nat) : List Char → List Char × Cursor
  | [] => ([], ⟨[], line, column, true⟩)
  | c :: rest =>
    if column = 0 && atMarker (c :: rest) then ([], ⟨c :: rest, line, column, true⟩)
    else if blank c then lineEnds blank line (column + 1) rest
    else if isBreak c then
      let (ends, cursor) := lineEnds blank (line + 1) 0 rest
      (lineEnd c :: ends, cursor)
    else ([], ⟨c :: rest, line, column, true⟩)
where
  lineEnd (c : Char) : Char := if c = '\x85' then '\n' else c

/-- What stands for ends of lines inside a scalar: a blank for a single one, otherwise all but the
first. -/
def folded (first : Char) (more : List Char) : List Char :=
  if first = '\n' ∨ first = '\x85' then (if more.isEmpty then [' '] else more) else first :: more

end TextGrammar.Yaml
