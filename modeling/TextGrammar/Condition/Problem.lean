import TextGrammar.Condition.Token
import TextGrammar.Text.Quoted

/-!
Problems of condition texts, the positions where they stand, and their wording.
-/

namespace TextGrammar.Condition

/-- What is wrong with a condition text. -/
inductive Problem where
  | unterminatedString
  | unexpectedCharacter (c : Char)
  | unexpected (found : TokenKind)
  | unexpectedAfter (found : TokenKind)
  | expected (kind found : TokenKind)
  | expectedKey
  | unknownWord (name : String)
  | chained
deriving DecidableEq, Repr

def Problem.text : Problem → String
  | unterminatedString => "Unterminated string"
  | unexpectedCharacter c => "Unexpected character " ++ Text.quoted c.toString
  | unexpected found => "Unexpected " ++ found.name
  | unexpectedAfter found => s!"Unexpected {found.name} after expression"
  | expected kind found => s!"Expected {kind.name}, got {found.name}"
  | expectedKey => "Expected '.name' or \"['name']\" after context"
  | unknownWord name => "Unknown identifier " ++ Text.quoted name
  | chained => "Chained comparisons are not supported"

/-- A problem at a position, counted in characters from the beginning of the text. -/
structure Misread where
  problem : Problem
  position : Nat
deriving DecidableEq, Repr

def Misread.message (misread : Misread) : String :=
  s!"{misread.problem.text} at position {misread.position}"

end TextGrammar.Condition
