import TextGrammar.Number.Basic

/-!
Tokens of condition texts.
-/

namespace TextGrammar.Condition

/-- The comparison operators. -/
inductive Operator where
  | strictEqual
  | strictUnequal
  | equal
  | unequal
  | less
  | atMost
  | greater
  | atLeast
deriving DecidableEq, Repr

namespace Operator

def text : Operator → String
  | strictEqual => "==="
  | strictUnequal => "!=="
  | equal => "=="
  | unequal => "!="
  | less => "<"
  | atMost => "<="
  | greater => ">"
  | atLeast => ">="

/-- All operators, each before those that its text begins with. -/
def all : List Operator :=
  [strictEqual, strictUnequal, equal, unequal, atMost, atLeast, less, greater]

end Operator

/-- The kinds of tokens, and the end of the text. -/
inductive TokenKind where
  | string
  | number
  | word
  | dot
  | openBracket
  | closeBracket
  | openParen
  | closeParen
  | compare
  | and
  | or
  | bang
  | minus
  | finish
deriving DecidableEq, Repr

/-- The name of a kind of tokens, as messages give it. -/
def TokenKind.name : TokenKind → String
  | string => "STRING"
  | number => "NUMBER"
  | word => "IDENT"
  | dot => "DOT"
  | openBracket => "LBRACKET"
  | closeBracket => "RBRACKET"
  | openParen => "LPAREN"
  | closeParen => "RPAREN"
  | compare => "COMPARE"
  | and => "AND"
  | or => "OR"
  | bang => "BANG"
  | minus => "MINUS"
  | finish => "EOF"

/-- The tokens of a condition text. -/
inductive Token where
  | string (value : String)
  | number (value : Number)
  | word (name : String)
  | dot
  | openBracket
  | closeBracket
  | openParen
  | closeParen
  | compare (operator : Operator)
  | and
  | or
  | bang
  | minus
deriving DecidableEq, Repr

def Token.kind : Token → TokenKind
  | string _ => .string
  | number _ => .number
  | word _ => .word
  | dot => .dot
  | openBracket => .openBracket
  | closeBracket => .closeBracket
  | openParen => .openParen
  | closeParen => .closeParen
  | compare _ => .compare
  | and => .and
  | or => .or
  | bang => .bang
  | minus => .minus

/-- What a reader of tokens meets: a token, or the end of the text. -/
abbrev Item := Option Token

def Item.kind : Item → TokenKind
  | some token => token.kind
  | none => .finish

end TextGrammar.Condition
