import TextGrammar.Text.Blank
import TextGrammar.Text.Digit

/-!
Indefinite articles: `a` and `an` are made to agree with the word behind them.
-/

namespace TextGrammar.Article

/-- The forms of the article. -/
def forms : List (List Char) := [['a'], ['a', 'n'], ['A'], ['A', 'n'], ['A', 'N']]

/-- A character of words: a letter, a digit, another numeric character or an underscore. -/
def isWordChar (c : Char) : Bool := Text.isAlphanumeric c || c = '_'

/-- A character of the word behind an article, from its second one on. -/
def isInner (c : Char) : Bool := isWordChar c || c = '\'' || c = '-'

/-- The lower-case characters of a character, as far as ASCII letters and those that turn into
them are concerned. -/
def lower (c : Char) : List Char := if c = '\u0130' then ['i', '\u0307'] else [c.toLower]

/-- Beginnings of words with a silent first letter. -/
def silentBeginnings : List String := ["hour", "honest", "honor", "honour", "heir"]

/-- Beginnings of words whose first vowel is spoken as a consonant. -/
def consonantBeginnings : List String :=
  ["uni", "use", "usu", "uti", "eu", "one", "once", "ewe"]

def isVowel (c : Char) : Bool := "aeiou".toList.contains c

/-- The word asks for `an`. -/
def wantsAn (word : List Char) : Bool :=
  let word := word.flatMap lower
  if silentBeginnings.any fun beginning => beginning.toList.isPrefixOf word then true
  else if consonantBeginnings.any fun beginning => beginning.toList.isPrefixOf word then false
  else word.head?.any isVowel

/-- The form of the article that a word asks for, in the case of the form that stands there. -/
def agreeing (article word : List Char) : List Char :=
  let an := wantsAn word
  if article = ['A', 'N'] then (if an then ['A', 'N'] else ['A'])
  else if article.head? = some 'A' then (if an then ['A', 'n'] else ['A'])
  else if an then ['a', 'n'] else ['a']

/-- An article, the blanks behind it and the word behind them. -/
structure Phrase where
  article : List Char
  space : List Char
  word : List Char
deriving DecidableEq, Repr

/-- The phrase with its article in agreement with its word. -/
def Phrase.agreed (phrase : Phrase) : List Char :=
  agreeing phrase.article phrase.word ++ phrase.space ++ phrase.word

def Phrase.length (phrase : Phrase) : Nat :=
  phrase.article.length + phrase.space.length + phrase.word.length

/-- The phrase with a given article that a text begins with. -/
def phraseWith? (text article : List Char) : Option Phrase :=
  if article.isPrefixOf text then
    let rest := text.drop article.length
    let space := rest.takeWhile Text.isBlank
    let word := (rest.dropWhile Text.isBlank).takeWhile isInner
    if !space.isEmpty && word.head?.any Char.isAlpha then some ⟨article, space, word⟩ else none
  else none

/-- The phrase that a text begins with. -/
def phrase? (text : List Char) : Option Phrase := forms.findSome? (phraseWith? text)

/-- The text with its articles in agreement, from left to right; a word that an article agrees
with is no article itself. `inWord` says that a character of a word stands before the text. -/
def agreeFrom (inWord : Bool) : List Char → List Char
  | [] => []
  | c :: rest =>
    match if inWord then none else phrase? (c :: rest) with
    | some phrase =>
      phrase.agreed ++
        agreeFrom (phrase.word.getLast?.any isWordChar) (rest.drop (phrase.length - 1))
    | none => c :: agreeFrom (isWordChar c) rest
termination_by text => text.length

/-- The text with its articles in agreement. -/
def agree (text : List Char) : List Char := agreeFrom false text

end TextGrammar.Article
