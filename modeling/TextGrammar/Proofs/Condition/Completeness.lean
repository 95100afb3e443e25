import TextGrammar.Proofs.Condition.Derivation

/-!
What the grammar of conditions derives is read as it is derived. A level reads on as long as the
next item continues it, so every statement says which items may stand behind the derivation.
-/

namespace TextGrammar.Condition

/-! ### Items behind a level -/

/-- Another operator would be refused behind a comparison. -/
def Item.endsComparison : Item → Bool
  | some (.compare _) => false
  | _ => true

def Item.endsConjunction (item : Item) : Bool := item.endsComparison && !item.any Token.isAnd

def Item.endsDisjunction (item : Item) : Bool := item.endsConjunction && !item.any Token.isOr

/-- Reading gives a value and leaves the rest. -/
def Gives {α : Type} {bound : Nat} (outcome : Except Stuck (Taken α bound)) (value : α)
    (rest : List Item) : Prop :=
  ∃ short, outcome = .ok ⟨value, rest, short⟩

namespace Derivation

/-- A further operand begins with a connective, which ends the operand before it. -/
theorem Disjuncts.ends_conjunction (more : Disjuncts) {rest : List Item}
    (ends : rest.head?.any Item.endsDisjunction) :
    (more.tokens.map some ++ rest).head?.any Item.endsConjunction := by
  cases more with
  | none =>
    cases rest with
    | nil => cases ends
    | cons item rest => exact (Bool.and_eq_true_iff.mp ends).1
  | more spelling operand more => cases spelling <;> rfl

theorem Conjuncts.ends_comparison (more : Conjuncts) {rest : List Item}
    (ends : rest.head?.any Item.endsConjunction) :
    (more.tokens.map some ++ rest).head?.any Item.endsComparison := by
  cases more with
  | none =>
    cases rest with
    | nil => cases ends
    | cons item rest => exact (Bool.and_eq_true_iff.mp ends).1
  | more spelling operand more => cases spelling <;> rfl

/-! ### The word that begins no comparison -/

theorem Primary.head_ne_not (form : Primary) (rest more : List Item) :
    form.tokens.map some ++ rest ≠ some (.word "not") :: more := by
  cases form with
  | literal word value stands =>
    intro same
    cases same
    simp [literalWord?] at stands
  | _ => simp [Primary.tokens]

theorem Operand.head_ne_not (form : Operand) (rest more : List Item) :
    form.tokens.map some ++ rest ≠ some (.word "not") :: more := by
  cases form with
  | primary primary => exact primary.head_ne_not rest more
  | _ => simp [Operand.tokens]

theorem Comparison.head_ne_not (form : Comparison) (rest more : List Item) :
    form.tokens.map some ++ rest ≠ some (.word "not") :: more := by
  cases form with
  | operand operand => exact operand.head_ne_not rest more
  | compare left operator right =>
    rw [Comparison.tokens, List.map_append, List.append_assoc]
    exact left.head_ne_not _ more

theorem takeNegation_of_ne {items : List Item}
    (different : ∀ rest, items ≠ some (.word "not") :: rest) :
    takeNegation items = takeComparison items := by
  rw [takeNegation]
  exact different

/-! ### Reading what is derived -/

theorem takeKey_tokens (key : Key) (rest : List Item) :
    Gives (takeKey (key.tokens.map some ++ rest)) key.tree rest := by
  cases key with
  | dotted name => exact ⟨_, rfl⟩
  | bracketed name => exact ⟨_, rfl⟩

mutual

theorem takeDisjunction_tokens (form : Disjunction) (rest : List Item)
    (ends : rest.head?.any Item.endsDisjunction) :
    Gives (takeDisjunction (form.tokens.map some ++ rest)) form.tree rest := by
  obtain ⟨first, more⟩ := form
  obtain ⟨_, left⟩ := takeConjunction_tokens first _ (more.ends_conjunction ends)
  obtain ⟨_, right⟩ := takeDisjuncts_tokens more rest ends
  rw [Disjunction.tokens, List.map_append, List.append_assoc]
  simp only [takeDisjunction, left, right, bind, Except.bind]
  exact ⟨_, rfl⟩

theorem takeDisjuncts_tokens (form : Disjuncts) (rest : List Item)
    (ends : rest.head?.any Item.endsDisjunction) :
    Gives (takeDisjuncts (form.tokens.map some ++ rest)) form.trees rest := by
  cases form with
  | none =>
    cases rest with
    | nil => cases ends
    | cons item rest =>
      have stops : ¬ item.any Token.isOr := by simpa using (Bool.and_eq_true_iff.mp ends).2
      rw [Disjuncts.tokens, List.map_nil, List.nil_append, takeDisjuncts, if_neg stops]
      exact ⟨_, rfl⟩
  | more spelling operand more =>
    obtain ⟨_, left⟩ := takeConjunction_tokens operand _ (more.ends_conjunction ends)
    obtain ⟨_, right⟩ := takeDisjuncts_tokens more rest ends
    have goesOn : Option.any Token.isOr (some spelling.or) := by cases spelling <;> rfl
    rw [Disjuncts.tokens, List.map_cons, List.map_append, List.cons_append, List.append_assoc]
    simp only [takeDisjuncts, goesOn, if_true, left, right, bind, Except.bind]
    exact ⟨_, rfl⟩

theorem takeConjunction_tokens (form : Conjunction) (rest : List Item)
    (ends : rest.head?.any Item.endsConjunction) :
    Gives (takeConjunction (form.tokens.map some ++ rest)) form.tree rest := by
  obtain ⟨first, more⟩ := form
  obtain ⟨_, left⟩ := takeNegation_tokens first _ (more.ends_comparison ends)
  obtain ⟨_, right⟩ := takeConjuncts_tokens more rest ends
  rw [Conjunction.tokens, List.map_append, List.append_assoc]
  simp only [takeConjunction, left, right, bind, Except.bind]
  exact ⟨_, rfl⟩

theorem takeConjuncts_tokens (form : Conjuncts) (rest : List Item)
    (ends : rest.head?.any Item.endsConjunction) :
    Gives (takeConjuncts (form.tokens.map some ++ rest)) form.trees rest := by
  cases form with
  | none =>
    cases rest with
    | nil => cases ends
    | cons item rest =>
      have stops : ¬ item.any Token.isAnd := by simpa using (Bool.and_eq_true_iff.mp ends).2
      rw [Conjuncts.tokens, List.map_nil, List.nil_append, takeConjuncts, if_neg stops]
      exact ⟨_, rfl⟩
  | more spelling operand more =>
    obtain ⟨_, left⟩ := takeNegation_tokens operand _ (more.ends_comparison ends)
    obtain ⟨_, right⟩ := takeConjuncts_tokens more rest ends
    have goesOn : Option.any Token.isAnd (some spelling.and) := by cases spelling <;> rfl
    rw [Conjuncts.tokens, List.map_cons, List.map_append, List.cons_append, List.append_assoc]
    simp only [takeConjuncts, goesOn, if_true, left, right, bind, Except.bind]
    exact ⟨_, rfl⟩

theorem takeNegation_tokens (form : Negation) (rest : List Item)
    (ends : rest.head?.any Item.endsComparison) :
    Gives (takeNegation (form.tokens.map some ++ rest)) form.tree rest := by
  cases form with
  | not operand =>
    obtain ⟨_, inner⟩ := takeNegation_tokens operand rest ends
    rw [Negation.tokens, List.map_cons, List.cons_append]
    simp only [takeNegation, inner, bind, Except.bind]
    exact ⟨_, rfl⟩
  | comparison comparison =>
    rw [Negation.tokens, takeNegation_of_ne (comparison.head_ne_not _)]
    exact takeComparison_tokens comparison rest ends

theorem takeComparison_tokens (form : Comparison) (rest : List Item)
    (ends : rest.head?.any Item.endsComparison) :
    Gives (takeComparison (form.tokens.map some ++ rest)) form.tree rest := by
  cases form with
  | operand operand =>
    obtain ⟨_, inner⟩ := takeOperand_tokens operand rest
    rw [Comparison.tokens]
    simp only [takeComparison, inner, bind, Except.bind]
    split
    · cases ends
    · cases ends
    · exact ⟨_, rfl⟩
  | compare left operator right =>
    obtain ⟨_, first⟩ :=
      takeOperand_tokens left (some (.compare operator) :: (right.tokens.map some ++ rest))
    obtain ⟨_, second⟩ := takeOperand_tokens right rest
    rw [Comparison.tokens, List.map_append, List.map_cons, List.append_assoc, List.cons_append]
    simp only [takeComparison, first, second, bind, Except.bind]
    split
    · cases ends
    · cases ends
    · exact ⟨_, rfl⟩

theorem takeOperand_tokens (form : Operand) (rest : List Item) :
    Gives (takeOperand (form.tokens.map some ++ rest)) form.tree rest := by
  cases form with
  | bang operand =>
    obtain ⟨_, inner⟩ := takeOperand_tokens operand rest
    rw [Operand.tokens, List.map_cons, List.cons_append]
    simp only [takeOperand, inner, bind, Except.bind]
    exact ⟨_, rfl⟩
  | minus value =>
    have spelled : (Operand.minus value).tokens.map some ++ rest =
        some .minus :: some (.number value) :: rest := rfl
    rw [spelled, takeOperand]
    exact ⟨_, rfl⟩
  | primary primary => exact takePrimary_tokens primary rest

theorem takePrimary_tokens (form : Primary) (rest : List Item) :
    Gives (takeOperand (form.tokens.map some ++ rest)) form.tree rest := by
  cases form with
  | string value =>
    rw [Primary.tokens, List.map_cons, List.cons_append, takeOperand]
    exact ⟨_, rfl⟩
  | number value =>
    rw [Primary.tokens, List.map_cons, List.cons_append, takeOperand]
    exact ⟨_, rfl⟩
  | literal word value stands =>
    rw [Primary.tokens, List.map_cons, List.cons_append]
    simp only [takeOperand, stands]
    exact ⟨_, rfl⟩
  | lookup key =>
    obtain ⟨_, inner⟩ := takeKey_tokens key rest
    have stands : literalWord? "context" = none := rfl
    rw [Primary.tokens, List.map_cons, List.cons_append]
    simp only [takeOperand, stands, if_true, inner, bind, Except.bind]
    exact ⟨_, rfl⟩
  | group inner =>
    obtain ⟨_, read⟩ := takeDisjunction_tokens inner (some .closeParen :: rest) rfl
    have spelled : (Primary.group inner).tokens.map some ++ rest =
        some .openParen :: (inner.tokens.map some ++ some .closeParen :: rest) := by
      simp [Primary.tokens]
    rw [spelled]
    simp only [takeOperand, read, bind, Except.bind]
    exact ⟨_, rfl⟩

end

end Derivation

end TextGrammar.Condition
