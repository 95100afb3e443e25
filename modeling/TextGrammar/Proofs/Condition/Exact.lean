import TextGrammar.Proofs.Condition.Soundness
import TextGrammar.Proofs.Condition.Unique

/-!
Reading tokens accepts exactly what the grammar of conditions derives, with the tree of the one
derivation. Other tokens are refused with a problem that stands in the text or at its end.
-/

namespace TextGrammar.Condition

open Condition.Derivation

/-- The end of the text stands once, so what is read up to it is the whole text. -/
theorem tokens_eq_of_end {read tokens : List Token} {rest : List Item}
    (split : tokens.map some ++ [none] = read.map some ++ none :: rest) : read = tokens := by
  induction read generalizing tokens with
  | nil =>
    cases tokens with
    | nil => rfl
    | cons token tokens => cases (List.cons.inj split).1
  | cons first read ih =>
    cases tokens with
    | nil => cases (List.cons.inj split).1
    | cons token tokens =>
      obtain ⟨same, split⟩ := List.cons.inj split
      rw [ih split, Option.some.inj same]

theorem ofTokens_tokens (form : Disjunction) : Tree.ofTokens form.tokens = .ok form.tree := by
  obtain ⟨_, read⟩ := takeDisjunction_tokens form [none] rfl
  simp only [Tree.ofTokens, Tree.ofItems, read, bind, Except.bind]
  rfl

/-- Tokens are those of a derivation, or a problem stands before one of them or at the end. -/
theorem ofTokens_outcome (tokens : List Token) :
    (∃ form : Disjunction, form.tokens = tokens) ∨
    ∃ problem rest, Tree.ofTokens tokens = .error (.problem problem rest) ∧
      rest ≠ [] ∧ rest <:+ tokens.map some ++ [none] := by
  have read := takeDisjunction_reads (tokens.map some ++ [none])
  cases outcome : takeDisjunction (tokens.map some ++ [none]) with
  | error stuck =>
    rw [outcome] at read
    cases stuck with
    | problem problem rest =>
      refine .inr ⟨problem, rest, ?_, read⟩
      simp only [Tree.ofTokens, Tree.ofItems, outcome, bind, Except.bind]
    | beyond => exact absurd (List.mem_append_right _ (List.mem_singleton_self none)) read
  | ok taken =>
    obtain ⟨tree, rest, short⟩ := taken
    rw [outcome] at read
    obtain ⟨form, split, _⟩ := read
    obtain _ | ⟨_ | token, rest⟩ := rest
    · have ends : none ∈ tokens.map some ++ [none] :=
        List.mem_append_right _ (List.mem_singleton_self none)
      rw [split] at ends
      simp at ends
    · exact .inl ⟨form, tokens_eq_of_end split⟩
    · refine .inr ⟨.unexpectedAfter token.kind, some token :: rest, ?_, List.cons_ne_nil _ _,
        ⟨form.tokens.map some, split.symm⟩⟩
      simp only [Tree.ofTokens, Tree.ofItems, outcome, bind, Except.bind]
      rfl

/-- The tokens of a text have a tree exactly if the grammar derives them, and it is the tree of
their only derivation. All other tokens are refused, never for want of a token behind the end. -/
theorem ofTokens_exact (tokens : List Token) :
    (∀ tree, Tree.ofTokens tokens = .ok tree ↔
      ∃ form : Disjunction, form.tokens = tokens ∧ form.tree = tree) ∧
    (∀ first second : Disjunction,
      first.tokens = tokens → second.tokens = tokens → first = second) ∧
    ((¬ ∃ form : Disjunction, form.tokens = tokens) →
      ∃ problem rest, Tree.ofTokens tokens = .error (.problem problem rest) ∧
        rest ≠ [] ∧ rest <:+ tokens.map some ++ [none]) ∧
    Tree.ofTokens tokens ≠ .error .beyond := by
  have outcome := ofTokens_outcome tokens
  refine ⟨fun tree => ⟨fun accepted => ?_, ?_⟩, ?_, outcome.resolve_left, ?_⟩
  · rcases outcome with ⟨form, rfl⟩ | ⟨problem, rest, refused, _⟩
    · rw [ofTokens_tokens form] at accepted
      exact ⟨form, rfl, Except.ok.inj accepted⟩
    · rw [refused] at accepted
      cases accepted
  · rintro ⟨form, rfl, rfl⟩
    exact ofTokens_tokens form
  · intro first second left right
    exact first.eq_of_tokens second (left.trans right.symm)
  · intro beyond
    rcases outcome with ⟨form, rfl⟩ | ⟨problem, rest, refused, _⟩
    · rw [ofTokens_tokens form] at beyond
      cases beyond
    · rw [refused] at beyond
      cases beyond

end TextGrammar.Condition
