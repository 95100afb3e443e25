import TextGrammar.Condition.Problem
import TextGrammar.Condition.Tree

/-!
From tokens to trees. A disjunction of conjunctions of negations of comparisons; `not` binds less
than a comparison, `!` and the minus sign bind more. A function for a level returns the tree it
read together with the items behind it, and a problem is reported with the items that it stands
before.
-/

namespace TextGrammar.Condition

/-- The words that stand for values. -/
def literalWord? : String → Option Scalar
  | "true" | "True" => some (.bool true)
  | "false" | "False" => some (.bool false)
  | "null" | "undefined" | "None" => some .null
  | _ => none

def Token.isOr : Token → Bool
  | or | word "or" => true
  | _ => false

def Token.isAnd : Token → Bool
  | and | word "and" => true
  | _ => false

/-- Why reading stops: a problem before the items that are left, or an item asked for where none
is left. -/
inductive Stuck where
  | problem (problem : Problem) (rest : List Item)
  | beyond
deriving DecidableEq, Repr

/-- Refuses the item that comes next. -/
def refuse {α : Type} (problem : TokenKind → Problem) : List Item → Except Stuck α
  | [] => .error .beyond
  | item :: rest => .error (.problem (problem item.kind) (item :: rest))

/-- What was read, and the items behind it, of which there are fewer than a bound. -/
structure Taken (α : Type) (bound : Nat) where
  value : α
  rest : List Item
  short : rest.length < bound

/-- The key behind the word `context`. -/
def takeKey : (items : List Item) → Except Stuck (Taken Tree items.length)
  | some .dot :: rest => match rest with
    | some (.word name) :: rest =>
      .ok ⟨.lookup name, rest, by simp only [List.length_cons]; omega⟩
    | rest => refuse (.expected .word) rest
  | some .openBracket :: rest => match rest with
    | some (.string key) :: rest => match rest with
      | some .closeBracket :: rest =>
        .ok ⟨.lookup key, rest, by simp only [List.length_cons]; omega⟩
      | rest => refuse (.expected .closeBracket) rest
    | rest => refuse (.expected .string) rest
  | rest => refuse (fun _ => .expectedKey) rest

/-- The number with the other sign. -/
def negated : Number → Number
  | .int value => .int (-value)
  | .real value => .real (-value)

mutual

/-- Conjunctions between the signs or words for `or`. -/
def takeDisjunction (items : List Item) : Except Stuck (Taken Tree items.length) := do
  let ⟨operand, rest, _⟩ ← takeConjunction items
  let ⟨more, rest, _⟩ ← takeDisjuncts rest
  return ⟨.disjunction operand more, rest, by omega⟩
termination_by 8 * items.length + 5

/-- The further operands of a disjunction. -/
def takeDisjuncts : (items : List Item) → Except Stuck (Taken (List Tree) (items.length + 1))
  | [] => .error .beyond
  | item :: rest =>
    if item.any Token.isOr then do
      let ⟨operand, rest, _⟩ ← takeConjunction rest
      let ⟨more, rest, _⟩ ← takeDisjuncts rest
      return ⟨operand :: more, rest, by simp only [List.length_cons]; omega⟩
    else .ok ⟨[], item :: rest, by simp⟩
termination_by items => 8 * items.length

/-- Negations between the signs or words for `and`. -/
def takeConjunction (items : List Item) : Except Stuck (Taken Tree items.length) := do
  let ⟨operand, rest, _⟩ ← takeNegation items
  let ⟨more, rest, _⟩ ← takeConjuncts rest
  return ⟨.conjunction operand more, rest, by omega⟩
termination_by 8 * items.length + 4

/-- The further operands of a conjunction. -/
def takeConjuncts : (items : List Item) → Except Stuck (Taken (List Tree) (items.length + 1))
  | [] => .error .beyond
  | item :: rest =>
    if item.any Token.isAnd then do
      let ⟨operand, rest, _⟩ ← takeNegation rest
      let ⟨more, rest, _⟩ ← takeConjuncts rest
      return ⟨operand :: more, rest, by simp only [List.length_cons]; omega⟩
    else .ok ⟨[], item :: rest, by simp⟩
termination_by items => 8 * items.length

/-- A comparison behind any number of words `not`. -/
def takeNegation : (items : List Item) → Except Stuck (Taken Tree items.length)
  | some (.word "not") :: rest => do
    let ⟨operand, rest, _⟩ ← takeNegation rest
    return ⟨.not operand, rest, by simp only [List.length_cons]; omega⟩
  | items => takeComparison items
termination_by items => 8 * items.length + 3

/-- An operand, or two with an operator between them; a third one is refused. -/
def takeComparison (items : List Item) : Except Stuck (Taken Tree items.length) := do
  let ⟨left, behind, _⟩ ← takeOperand items
  match same : behind with
  | [] => .error .beyond
  | some (.compare operator) :: rest =>
    have _ : rest.length + 1 = behind.length := by rw [same]; rfl
    let ⟨right, behind, _⟩ ← takeOperand rest
    match behind with
    | [] => .error .beyond
    | some (.compare _) :: _ => refuse (fun _ => .chained) behind
    | _ => return ⟨.compare operator left right, behind, by omega⟩
  | _ => return ⟨left, behind, by omega⟩
termination_by 8 * items.length + 2

/-- A negated operand, a negative number, a literal, a look-up or a condition in parentheses. -/
def takeOperand : (items : List Item) → Except Stuck (Taken Tree items.length)
  | some .bang :: rest => do
    let ⟨operand, rest, _⟩ ← takeOperand rest
    return ⟨.not operand, rest, by simp only [List.length_cons]; omega⟩
  | some .minus :: rest => match rest with
    | some (.number value) :: rest =>
      .ok ⟨.literal (.number (negated value)), rest, by simp only [List.length_cons]; omega⟩
    | rest => refuse (.expected .number) rest
  | some (.string value) :: rest => .ok ⟨.literal (.str value), rest, by simp⟩
  | some (.number value) :: rest => .ok ⟨.literal (.number value), rest, by simp⟩
  | some (.word name) :: rest => match literalWord? name with
    | some value => .ok ⟨.literal value, rest, by simp⟩
    | none =>
      if name = "context" then do
        let ⟨tree, rest, _⟩ ← takeKey rest
        return ⟨tree, rest, by simp only [List.length_cons]; omega⟩
      else refuse (fun _ => .unknownWord name) (some (.word name) :: rest)
  | some .openParen :: rest => do
    let ⟨tree, behind, _⟩ ← takeDisjunction rest
    match same : behind with
    | some .closeParen :: rest =>
      have _ : rest.length + 1 = behind.length := by rw [same]; rfl
      return ⟨tree, rest, by simp only [List.length_cons]; omega⟩
    | _ => refuse (.expected .closeParen) behind
  | rest => refuse .unexpected rest
termination_by items => 8 * items.length + 1

end

/-- The tree that items denote, which end with the end of the text. -/
def Tree.ofItems (items : List Item) : Except Stuck Tree := do
  match ← takeDisjunction items with
  | ⟨tree, none :: _, _⟩ => return tree
  | ⟨_, rest, _⟩ => refuse .unexpectedAfter rest

/-- The tree that the tokens of a whole text denote. -/
def Tree.ofTokens (tokens : List Token) : Except Stuck Tree := ofItems (tokens.map some ++ [none])

end TextGrammar.Condition
