import TextGrammar.Text.Blank

/-!
Spacing: no blanks before punctuation, and no runs of blanks and tabs.
-/

namespace TextGrammar.Spacing

/-- A character that no blank stands before. -/
def isPunctuation (c : Char) : Bool := ",.!?;:".toList.contains c

/-- The first character that is no blank is punctuation. -/
def leadsToPunctuation (text : List Char) : Bool :=
  (text.dropWhile Text.isBlank).head?.any isPunctuation

/-- The text without blanks before punctuation. -/
def tighten : List Char → List Char
  | [] => []
  | c :: rest =>
    if Text.isBlank c && leadsToPunctuation rest then tighten rest else c :: tighten rest

/-- A blank or a tab. -/
def isGap (c : Char) : Bool := c = ' ' || c = '\t'

/-- The text with a single blank for each run of two or more blanks and tabs. -/
def collapse : List Char → List Char
  | [] => []
  | c :: rest =>
    if isGap c && rest.head?.any isGap then ' ' :: collapse (rest.dropWhile isGap)
    else c :: collapse rest
termination_by text => text.length
decreasing_by
  · have shorter := (List.dropWhile_suffix (l := rest) isGap).length_le
    simp; omega
  · simp

/-- The text with tidy spacing. -/
def tidy (text : List Char) : List Char := collapse (tighten text)

end TextGrammar.Spacing
