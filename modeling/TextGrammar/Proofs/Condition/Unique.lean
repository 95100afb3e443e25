import TextGrammar.Proofs.Condition.Completeness

/-!
The grammar of conditions is unambiguous: tokens determine their derivation. Where two parts of a
derivation meet is settled by reading, which leaves the same rest whatever the derivation.
-/

namespace TextGrammar.Condition.Derivation

theorem Spelling.or_injective : Function.Injective Spelling.or := by
  intro first second same
  cases first <;> cases second <;> trivial

theorem Spelling.and_injective : Function.Injective Spelling.and := by
  intro first second same
  cases first <;> cases second <;> trivial

theorem Key.eq_of_tokens {first second : Key} (same : first.tokens = second.tokens) :
    first = second := by
  cases first <;> cases second <;> cases same <;> rfl

section

variable {α : Type} {read : (items : List Item) → Except Stuck (Taken α items.length)}
variable {value value' : α}

theorem rest_eq {items items' rest rest' : List Item} (same : items = items')
    (first : Gives (read items) value rest) (second : Gives (read items') value' rest') :
    rest = rest' := by
  subst same
  obtain ⟨_, first⟩ := first
  obtain ⟨_, second⟩ := second
  rw [first] at second
  cases second
  rfl

/-- Two readings of the same tokens, each of a first part, stop at one place. -/
theorem parts_eq {left right left' right' : List Token} (same : left ++ right = left' ++ right')
    (first : Gives (read (left.map some ++ (right.map some ++ [none]))) value
      (right.map some ++ [none]))
    (second : Gives (read (left'.map some ++ (right'.map some ++ [none]))) value'
      (right'.map some ++ [none])) :
    left = left' ∧ right = right' := by
  have items : left.map some ++ (right.map some ++ [none]) =
      left'.map some ++ (right'.map some ++ [none]) := by
    rw [← List.append_assoc, ← List.append_assoc, ← List.map_append, ← List.map_append, same]
  have rests := List.append_cancel_right (rest_eq items first second)
  obtain rfl := (List.map_inj_right fun _ _ => Option.some.inj).mp rests
  exact ⟨List.append_cancel_right same, rfl⟩

end

mutual

theorem Disjunction.eq_of_tokens (first second : Disjunction)
    (same : first.tokens = second.tokens) : first = second := by
  obtain ⟨operand, more⟩ := first
  obtain ⟨operand', more'⟩ := second
  have parts := parts_eq same
    (takeConjunction_tokens operand _ (more.ends_conjunction rfl))
    (takeConjunction_tokens operand' _ (more'.ends_conjunction rfl))
  rw [operand.eq_of_tokens operand' parts.1, more.eq_of_tokens more' parts.2]
termination_by structural first

theorem Disjuncts.eq_of_tokens (first second : Disjuncts)
    (same : first.tokens = second.tokens) : first = second := by
  cases first <;> cases second
  case none.none => rfl
  case none.more => cases same
  case more.none => cases same
  case more.more spelling operand more spelling' operand' more' =>
    obtain ⟨sign, same⟩ := List.cons.inj same
    have parts := parts_eq same
      (takeConjunction_tokens operand _ (more.ends_conjunction rfl))
      (takeConjunction_tokens operand' _ (more'.ends_conjunction rfl))
    rw [Spelling.or_injective sign, operand.eq_of_tokens operand' parts.1,
      more.eq_of_tokens more' parts.2]
termination_by structural first

theorem Conjunction.eq_of_tokens (first second : Conjunction)
    (same : first.tokens = second.tokens) : first = second := by
  obtain ⟨operand, more⟩ := first
  obtain ⟨operand', more'⟩ := second
  have parts := parts_eq same
    (takeNegation_tokens operand _ (more.ends_comparison rfl))
    (takeNegation_tokens operand' _ (more'.ends_comparison rfl))
  rw [operand.eq_of_tokens operand' parts.1, more.eq_of_tokens more' parts.2]
termination_by structural first

theorem Conjuncts.eq_of_tokens (first second : Conjuncts)
    (same : first.tokens = second.tokens) : first = second := by
  cases first <;> cases second
  case none.none => rfl
  case none.more => cases same
  case more.none => cases same
  case more.more spelling operand more spelling' operand' more' =>
    obtain ⟨sign, same⟩ := List.cons.inj same
    have parts := parts_eq same
      (takeNegation_tokens operand _ (more.ends_comparison rfl))
      (takeNegation_tokens operand' _ (more'.ends_comparison rfl))
    rw [Spelling.and_injective sign, operand.eq_of_tokens operand' parts.1,
      more.eq_of_tokens more' parts.2]
termination_by structural first

theorem Negation.eq_of_tokens (first second : Negation)
    (same : first.tokens = second.tokens) : first = second := by
  cases first <;> cases second
  case not.not operand operand' =>
    rw [operand.eq_of_tokens operand' (List.cons.inj same).2]
  case not.comparison operand comparison =>
    exact absurd (congrArg (List.map some) same).symm
      (by simpa [Negation.tokens] using comparison.head_ne_not [] _)
  case comparison.not comparison operand =>
    exact absurd (congrArg (List.map some) same)
      (by simpa [Negation.tokens] using comparison.head_ne_not [] _)
  case comparison.comparison comparison comparison' =>
    rw [comparison.eq_of_tokens comparison' same]
termination_by structural first

theorem Comparison.eq_of_tokens (first second : Comparison)
    (same : first.tokens = second.tokens) : first = second := by
  cases first <;> cases second
  case operand.operand operand operand' => rw [operand.eq_of_tokens operand' same]
  case operand.compare operand left operator right =>
    have joined : operand.tokens ++ [] = left.tokens ++ .compare operator :: right.tokens := by
      simpa [Comparison.tokens] using same
    have parts := parts_eq joined (takeOperand_tokens operand _) (takeOperand_tokens left _)
    cases parts.2
  case compare.operand left operator right operand =>
    have joined : left.tokens ++ .compare operator :: right.tokens = operand.tokens ++ [] := by
      simpa [Comparison.tokens] using same
    have parts := parts_eq joined (takeOperand_tokens left _) (takeOperand_tokens operand _)
    cases parts.2
  case compare.compare left operator right left' operator' right' =>
    have parts := parts_eq same (takeOperand_tokens left _) (takeOperand_tokens left' _)
    obtain ⟨sign, tail⟩ := List.cons.inj parts.2
    cases sign
    rw [left.eq_of_tokens left' parts.1, right.eq_of_tokens right' tail]
termination_by structural first

theorem Operand.eq_of_tokens (first second : Operand)
    (same : first.tokens = second.tokens) : first = second := by
  cases first <;> cases second
  case bang.bang operand operand' => rw [operand.eq_of_tokens operand' (List.cons.inj same).2]
  case minus.minus => cases same; rfl
  case primary.primary primary primary' => rw [primary.eq_of_tokens primary' same]
  case bang.minus => cases same
  case minus.bang => cases same
  case bang.primary operand primary => cases primary <;> cases same
  case minus.primary value primary => cases primary <;> cases same
  case primary.bang primary operand => cases primary <;> cases same
  case primary.minus primary value => cases primary <;> cases same
termination_by structural first

theorem Primary.eq_of_tokens (first second : Primary)
    (same : first.tokens = second.tokens) : first = second := by
  cases first <;> cases second
  case string.string => cases same; rfl
  case number.number => cases same; rfl
  case literal.literal word value stands word' value' stands' =>
    cases same
    cases stands.symm.trans stands'
    rfl
  case literal.lookup word value stands key =>
    cases (List.cons.inj same).1
    cases stands
  case lookup.literal key word value stands =>
    cases (List.cons.inj same).1
    cases stands
  case lookup.lookup key key' => rw [Key.eq_of_tokens (List.cons.inj same).2]
  case group.group inner inner' =>
    rw [inner.eq_of_tokens inner' (List.append_cancel_right (List.cons.inj same).2)]
  all_goals cases (List.cons.inj same).1
termination_by structural first

end

end TextGrammar.Condition.Derivation
