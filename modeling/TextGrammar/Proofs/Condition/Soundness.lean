import TextGrammar.Proofs.Condition.Derivation

/-!
Whatever is read has a derivation, and reading stops at the latest at the end of the text: a
problem stands before an item that was there, and no item is asked for behind the last one.
-/

namespace TextGrammar.Condition

/-- A problem stands before some of the items; items without an end may run out. -/
def Stuck.FitsIn (items : List Item) : Stuck → Prop
  | problem _ rest => rest ≠ [] ∧ rest <:+ items
  | beyond => none ∉ items

/-- What is read from items has a form that spells the items up to those that are left. -/
def Reads {α β : Type} {bound : Nat} (tokens : β → List Token) (value : β → α)
    (items : List Item) : Except Stuck (Taken α bound) → Prop
  | .ok taken => ∃ form, items = (tokens form).map some ++ taken.rest ∧ value form = taken.value
  | .error stuck => stuck.FitsIn items

namespace Derivation

variable {α β γ δ : Type} {bound limit : Nat} {items rest : List Item}

theorem fitsIn_append {stuck : Stuck} (tokens : List Token) (fits : stuck.FitsIn rest) :
    stuck.FitsIn (tokens.map some ++ rest) := by
  cases stuck with
  | problem problem left => exact ⟨fits.1, fits.2.trans (List.suffix_append _ _)⟩
  | beyond => simpa [Stuck.FitsIn] using fits

theorem reads_refuse {tokens : β → List Token} {value : β → α} (read : List Token)
    (problem : TokenKind → Problem) (split : items = read.map some ++ rest) :
    Reads tokens value items (refuse problem rest : Except Stuck (Taken α bound)) := by
  subst split
  cases rest with
  | nil => simp [refuse, Reads, Stuck.FitsIn]
  | cons item rest => exact ⟨List.cons_ne_nil item rest, List.suffix_append _ _⟩

/-- What is read behind other tokens is read with them in front. -/
theorem reads_behind {tokens : β → List Token} {value : β → α}
    {outcome : Except Stuck (Taken α bound)} (read : List Token)
    (behind : Reads tokens value rest outcome) (split : items = read.map some ++ rest) :
    Reads (fun form => read ++ tokens form) value items outcome := by
  subst split
  cases outcome with
  | error stuck => exact fitsIn_append read behind
  | ok taken =>
    obtain ⟨form, split, same⟩ := behind
    exact ⟨form, by rw [split, List.map_append, List.append_assoc], same⟩

theorem reads_bind {tokens : β → List Token} {value : β → α} {nextTokens : δ → List Token}
    {nextValue : δ → γ} {outcome : Except Stuck (Taken α bound)}
    {next : Taken α bound → Except Stuck (Taken γ limit)} (first : Reads tokens value items outcome)
    (second : ∀ form rest short, items = (tokens form).map some ++ rest →
      Reads nextTokens nextValue items (next ⟨value form, rest, short⟩)) :
    Reads nextTokens nextValue items (outcome >>= next) := by
  cases outcome with
  | error stuck => exact first
  | ok taken =>
    obtain ⟨_, rest, short⟩ := taken
    obtain ⟨form, split, rfl⟩ := first
    exact second form rest short split

/-! ### What continues a chain -/

theorem exists_spelling_or {item : Item} (goesOn : item.any Token.isOr) :
    ∃ spelling : Spelling, item = some spelling.or := by
  obtain _ | token := item
  · cases goesOn
  · rw [Option.any_some] at goesOn
    unfold Token.isOr at goesOn
    split at goesOn
    · exact ⟨.sign, rfl⟩
    · exact ⟨.word, rfl⟩
    · cases goesOn

theorem exists_spelling_and {item : Item} (goesOn : item.any Token.isAnd) :
    ∃ spelling : Spelling, item = some spelling.and := by
  obtain _ | token := item
  · cases goesOn
  · rw [Option.any_some] at goesOn
    unfold Token.isAnd at goesOn
    split at goesOn
    · exact ⟨.sign, rfl⟩
    · exact ⟨.word, rfl⟩
    · cases goesOn

/-! ### What each level reads -/

theorem takeKey_reads (items : List Item) : Reads Key.tokens Key.tree items (takeKey items) := by
  unfold takeKey
  split
  · split
    · rename_i name rest
      exact ⟨.dotted name, rfl, rfl⟩
    · exact reads_refuse [.dot] _ rfl
  · split
    · rename_i key _
      split
      · exact ⟨.bracketed key, rfl, rfl⟩
      · exact reads_refuse [.openBracket, .string key] _ rfl
    · exact reads_refuse [.openBracket] _ rfl
  · exact reads_refuse [] _ rfl

mutual

theorem takeDisjunction_reads (items : List Item) :
    Reads Disjunction.tokens Disjunction.tree items (takeDisjunction items) := by
  rw [takeDisjunction]
  refine reads_bind (takeConjunction_reads items) fun first rest short split => ?_
  refine reads_bind (reads_behind _ (takeDisjuncts_reads rest) split) fun more rest _ split => ?_
  exact ⟨.mk first more, split, rfl⟩
termination_by 8 * items.length + 5

theorem takeDisjuncts_reads (items : List Item) :
    Reads Disjuncts.tokens Disjuncts.trees items (takeDisjuncts items) := by
  cases items with
  | nil =>
    rw [takeDisjuncts]
    exact List.not_mem_nil
  | cons item rest =>
    rw [takeDisjuncts]
    split
    · rename_i goesOn
      obtain ⟨spelling, rfl⟩ := exists_spelling_or goesOn
      refine reads_bind (reads_behind [spelling.or] (takeConjunction_reads rest) rfl)
        fun first rest short split => ?_
      refine reads_bind (reads_behind _ (takeDisjuncts_reads rest) split)
        fun more rest _ split => ?_
      exact ⟨.more spelling first more, split, rfl⟩
    · exact ⟨.none, rfl, rfl⟩
termination_by 8 * items.length

theorem takeConjunction_reads (items : List Item) :
    Reads Conjunction.tokens Conjunction.tree items (takeConjunction items) := by
  rw [takeConjunction]
  refine reads_bind (takeNegation_reads items) fun first rest short split => ?_
  refine reads_bind (reads_behind _ (takeConjuncts_reads rest) split) fun more rest _ split => ?_
  exact ⟨.mk first more, split, rfl⟩
termination_by 8 * items.length + 4

theorem takeConjuncts_reads (items : List Item) :
    Reads Conjuncts.tokens Conjuncts.trees items (takeConjuncts items) := by
  cases items with
  | nil =>
    rw [takeConjuncts]
    exact List.not_mem_nil
  | cons item rest =>
    rw [takeConjuncts]
    split
    · rename_i goesOn
      obtain ⟨spelling, rfl⟩ := exists_spelling_and goesOn
      refine reads_bind (reads_behind [spelling.and] (takeNegation_reads rest) rfl)
        fun first rest short split => ?_
      refine reads_bind (reads_behind _ (takeConjuncts_reads rest) split)
        fun more rest _ split => ?_
      exact ⟨.more spelling first more, split, rfl⟩
    · exact ⟨.none, rfl, rfl⟩
termination_by 8 * items.length

theorem takeNegation_reads (items : List Item) :
    Reads Negation.tokens Negation.tree items (takeNegation items) := by
  unfold takeNegation
  split
  · rename_i rest
    refine reads_bind (reads_behind [.word "not"] (takeNegation_reads rest) rfl)
      fun operand rest _ split => ?_
    exact ⟨.not operand, split, rfl⟩
  · have read := takeComparison_reads items
    cases outcome : takeComparison items with
    | error stuck => rwa [outcome] at read
    | ok taken =>
      rw [outcome] at read
      obtain ⟨comparison, split, same⟩ := read
      exact ⟨.comparison comparison, split, same⟩
termination_by 8 * items.length + 3

theorem takeComparison_reads (items : List Item) :
    Reads Comparison.tokens Comparison.tree items (takeComparison items) := by
  rw [takeComparison]
  refine reads_bind (takeOperand_reads items) fun left behind short split => ?_
  dsimp only
  split
  · subst split
    simp [Reads, Stuck.FitsIn]
  · rename_i operator rest
    refine reads_bind (reads_behind (left.tokens ++ [.compare operator]) (takeOperand_reads rest)
      (by simpa using split)) fun right behind _ split => ?_
    dsimp only
    split
    · subst split
      simp [Reads, Stuck.FitsIn]
    · exact reads_refuse _ _ split
    · exact ⟨.compare left operator right, by simpa [Comparison.tokens] using split, rfl⟩
  · exact ⟨.operand left, split, rfl⟩
termination_by 8 * items.length + 2

theorem takeOperand_reads (items : List Item) :
    Reads Operand.tokens Operand.tree items (takeOperand items) := by
  unfold takeOperand
  split
  · rename_i rest
    refine reads_bind (reads_behind [.bang] (takeOperand_reads rest) rfl)
      fun operand rest _ split => ?_
    exact ⟨.bang operand, split, rfl⟩
  · split
    · rename_i value rest
      exact ⟨.minus value, rfl, rfl⟩
    · exact reads_refuse [.minus] _ rfl
  · rename_i value rest
    exact ⟨.primary (.string value), rfl, rfl⟩
  · rename_i value rest
    exact ⟨.primary (.number value), rfl, rfl⟩
  · rename_i name rest
    split
    · rename_i value stands
      exact ⟨.primary (.literal name value stands), rfl, rfl⟩
    · split
      · rename_i same
        subst same
        refine reads_bind (reads_behind [.word "context"] (takeKey_reads rest) rfl)
          fun key rest _ split => ?_
        exact ⟨.primary (.lookup key), split, rfl⟩
      · exact reads_refuse [] _ rfl
  · rename_i rest
    refine reads_bind (reads_behind [.openParen] (takeDisjunction_reads rest) rfl)
      fun inner behind _ split => ?_
    dsimp only
    split
    · exact ⟨.primary (.group inner), by simpa [Operand.tokens, Primary.tokens] using split, rfl⟩
    · exact reads_refuse _ _ split
  · exact reads_refuse [] _ rfl
termination_by 8 * items.length + 1

end

end Derivation

end TextGrammar.Condition
