import TextGrammar.Failure
import TextGrammar.Modifier.Article
import TextGrammar.Modifier.Sentence
import TextGrammar.Modifier.Spacing

/-!
Modifiers: what happens to a text after it has been generated.
-/

namespace TextGrammar

/-- A change to a whole text, which may be refused. -/
abbrev Modifier := String → Except Failure String

namespace Modifier

/-- A modifier that never refuses. -/
def ofCharacters (change : List Char → List Char) : Modifier := fun text =>
  .ok (String.ofList (change text.toList))

/-- The modifiers that documents may name. -/
def named : List (String × Modifier) :=
  [("englishArticles", ofCharacters Article.agree),
   ("englishCapitalization", ofCharacters Sentence.capitalize),
   ("punctuationCleanup", ofCharacters Spacing.tidy)]

/-- The modifier with a name. -/
def ofName? (name : String) : Option Modifier :=
  (named.find? fun entry => entry.1 = name).map Prod.snd

end Modifier

end TextGrammar
