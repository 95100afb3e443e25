import TextGrammar.Text.Ranges

/-!
Blank characters: white space of Unicode 14 together with the four information separators
U+001C to U+001F.
-/

namespace TextGrammar.Text

/-- The blank characters as closed ranges of code points. -/
def blankRanges : List (Nat × Nat) :=
  [(0x9, 0xD), (0x1C, 0x20), (0x85, 0x85), (0xA0, 0xA0), (0x1680, 0x1680), (0x2000, 0x200A),
   (0x2028, 0x2029), (0x202F, 0x202F), (0x205F, 0x205F), (0x3000, 0x3000)]

/-- White space or one of the information separators U+001C to U+001F. -/
def isBlank (c : Char) : Bool := inRanges blankRanges c.toNat

/-- Blank, but no information separator: what may stand around a numeral. -/
def isNumeralBlank (c : Char) : Bool :=
  isBlank c && !(0x1C ≤ c.toNat && c.toNat ≤ 0x1F)

/-- The text without the characters of a class at both ends. -/
def trimBy (inClass : Char → Bool) (text : List Char) : List Char :=
  ((text.dropWhile inClass).reverse.dropWhile inClass).reverse

/-- The text without blanks at both ends. -/
def trim (text : List Char) : List Char := trimBy isBlank text

end TextGrammar.Text
