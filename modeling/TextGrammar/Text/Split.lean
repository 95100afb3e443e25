/-!
Splitting text at a character.
-/

namespace TextGrammar.Text

/-- The parts of a text between the characters that divide it. -/
def splitAt (divider : Char) : List Char → List (List Char)
  | [] => [[]]
  | c :: rest =>
    if c = divider then [] :: splitAt divider rest
    else match splitAt divider rest with
      | part :: parts => (c :: part) :: parts
      | [] => [[c]]

end TextGrammar.Text
