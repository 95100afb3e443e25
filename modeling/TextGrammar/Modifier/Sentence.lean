import TextGrammar.Text.Blank

/-!
Sentences: the first letter of a text and those behind the end of a sentence become capitals.
-/

namespace TextGrammar.Sentence

/-- Where a character stands: where a sentence begins, directly behind the end of one, or
elsewhere. -/
inductive Position where
  | beginning
  | behindEnd
  | inside
deriving DecidableEq, Repr

/-- A character that ends sentences. -/
def isEnd (c : Char) : Bool := c = '.' || c = '!' || c = '?'

/-- The position behind a character: blanks lead from the end of a sentence to the beginning of
the next one. -/
def Position.next (position : Position) (c : Char) : Position :=
  if isEnd c then behindEnd
  else if Text.isBlank c then
    match position with
    | behindEnd => beginning
    | other => other
  else inside

/-- The text with capitals where sentences begin, from a position on. -/
def capitalizeFrom (position : Position) : List Char → List Char
  | [] => []
  | c :: rest =>
    (if position = .beginning then c.toUpper else c) :: capitalizeFrom (position.next c) rest

/-- The text with capitals at its beginning and behind the ends of sentences. Blanks at the
beginning of the text hide its first letter. -/
def capitalize : List Char → List Char
  | [] => []
  | c :: rest => c.toUpper :: capitalizeFrom (Position.next .inside c) rest

end TextGrammar.Sentence
