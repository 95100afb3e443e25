import TextGrammar.Condition.Grammar

/-!
The grammar of conditions as data. A derivation spells a list of tokens and has a tree; there is
one type for each level of the grammar, with one constructor for each alternative.
-/

namespace TextGrammar.Condition.Derivation

/-- A connective is spelled by its sign or by its word. -/
inductive Spelling where
  | sign
  | word

def Spelling.or : Spelling → Token
  | sign => .or
  | word => .word "or"

def Spelling.and : Spelling → Token
  | sign => .and
  | word => .word "and"

/-- The key behind the word `context`: any word behind a dot, or a string in brackets. -/
inductive Key where
  | dotted (name : String)
  | bracketed (key : String)

mutual

/-- A conjunction, and any number of further ones, each behind an `or`. -/
inductive Disjunction where
  | mk (first : Conjunction) (more : Disjuncts)

inductive Disjuncts where
  | none
  | more (spelling : Spelling) (operand : Conjunction) (rest : Disjuncts)

/-- A negation, and any number of further ones, each behind an `and`. -/
inductive Conjunction where
  | mk (first : Negation) (more : Conjuncts)

inductive Conjuncts where
  | none
  | more (spelling : Spelling) (operand : Negation) (rest : Conjuncts)

/-- The word `not` before a negation, or a comparison. -/
inductive Negation where
  | not (operand : Negation)
  | comparison (comparison : Comparison)

/-- An operand, or two with an operator between them. -/
inductive Comparison where
  | operand (operand : Operand)
  | compare (left : Operand) (operator : Operator) (right : Operand)

/-- An operand behind `!`, a number behind `-`, or a primary operand. -/
inductive Operand where
  | bang (operand : Operand)
  | minus (value : Number)
  | primary (primary : Primary)

/-- A string, a number, a word that stands for a value, a look-up, or a disjunction in
parentheses. -/
inductive Primary where
  | string (value : String)
  | number (value : Number)
  | literal (word : String) (value : Scalar) (stands : literalWord? word = some value)
  | lookup (key : Key)
  | group (inner : Disjunction)

end

/-! ### Spelling -/

def Key.tokens : Key → List Token
  | dotted name => [.dot, .word name]
  | bracketed key => [.openBracket, .string key, .closeBracket]

mutual

/-- The tokens that a derivation spells. -/
def Disjunction.tokens : Disjunction → List Token
  | .mk first more => first.tokens ++ more.tokens

def Disjuncts.tokens : Disjuncts → List Token
  | .none => []
  | .more spelling operand rest => spelling.or :: (operand.tokens ++ rest.tokens)

def Conjunction.tokens : Conjunction → List Token
  | .mk first more => first.tokens ++ more.tokens

def Conjuncts.tokens : Conjuncts → List Token
  | .none => []
  | .more spelling operand rest => spelling.and :: (operand.tokens ++ rest.tokens)

def Negation.tokens : Negation → List Token
  | .not operand => .word "not" :: operand.tokens
  | .comparison comparison => comparison.tokens

def Comparison.tokens : Comparison → List Token
  | .operand operand => operand.tokens
  | .compare left operator right => left.tokens ++ .compare operator :: right.tokens

def Operand.tokens : Operand → List Token
  | .bang operand => .bang :: operand.tokens
  | .minus value => [.minus, .number value]
  | .primary primary => primary.tokens

def Primary.tokens : Primary → List Token
  | .string value => [.string value]
  | .number value => [.number value]
  | .literal word .. => [.word word]
  | .lookup key => .word "context" :: key.tokens
  | .group inner => .openParen :: (inner.tokens ++ [.closeParen])

end

/-! ### Trees -/

def Key.tree : Key → Tree
  | dotted name => .lookup name
  | bracketed key => .lookup key

mutual

/-- The tree of a derivation: a chain of one operand is that operand, a longer one is one flat
connective. -/
def Disjunction.tree : Disjunction → Tree
  | .mk first more => .disjunction first.tree more.trees

def Disjuncts.trees : Disjuncts → List Tree
  | .none => []
  | .more _ operand rest => operand.tree :: rest.trees

def Conjunction.tree : Conjunction → Tree
  | .mk first more => .conjunction first.tree more.trees

def Conjuncts.trees : Conjuncts → List Tree
  | .none => []
  | .more _ operand rest => operand.tree :: rest.trees

def Negation.tree : Negation → Tree
  | .not operand => .not operand.tree
  | .comparison comparison => comparison.tree

def Comparison.tree : Comparison → Tree
  | .operand operand => operand.tree
  | .compare left operator right => .compare operator left.tree right.tree

def Operand.tree : Operand → Tree
  | .bang operand => .not operand.tree
  | .minus value => .literal (.number (negated value))
  | .primary primary => primary.tree

def Primary.tree : Primary → Tree
  | .string value => .literal (.str value)
  | .number value => .literal (.number value)
  | .literal _ value _ => .literal value
  | .lookup key => key.tree
  | .group inner => inner.tree

end

end TextGrammar.Condition.Derivation
