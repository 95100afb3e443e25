import Mathlib
import TextGrammar.Proofs.Condition.Faults
import TextGrammar.Proofs.Condition.Lexical

/-!
Compiled conditions against the two grammars, of characters and of tokens. Main statement: a text
whose digits all denote numbers is compiled to a predicate whose tree is the one that the text
denotes; a text that denotes none gives a predicate that holds nowhere.
-/

namespace TextGrammar

namespace Condition

/-- The text spells the tokens of a derivation, and that has the tree. -/
def Denotes (text : String) (tree : Tree) : Prop :=
  ∃ tokens, Lexed false text.toList tokens ∧
    ∃ form : Derivation.Disjunction, form.tokens = tokens ∧ form.tree = tree

theorem scan_eq_ok_iff {text : String} {tokens : List Token} :
    (∃ found, scan text = .ok found ∧ found.map Lexeme.token = tokens) ↔
      Lexed false text.toList tokens := by
  rw [← lexemesFrom_eq_ok_iff 0]
  refine exists_congr fun found => and_congr_left fun _ => ?_
  rw [scan, lexemes]
  split <;> simp_all

theorem hasBadDigits_iff {text : String} : HasBadDigits text ↔ Misnumbered false text.toList := by
  rw [← lexemesFrom_eq_fault_iff 0, HasBadDigits, scan, lexemes]
  split <;> simp_all

theorem ofTokens_eq_ok_iff {tokens : List Token} {tree : Tree} :
    Tree.ofTokens tokens = .ok tree ↔
      ∃ form : Derivation.Disjunction, form.tokens = tokens ∧ form.tree = tree := by
  constructor
  · intro read
    rcases ofTokens_outcome tokens with ⟨form, rfl⟩ | ⟨problem, rest, refused, -⟩
    · rw [ofTokens_tokens form] at read
      exact ⟨form, rfl, Except.ok.inj read⟩
    · rw [refused] at read
      cases read
  · rintro ⟨form, rfl, rfl⟩
    exact ofTokens_tokens form

/-- Reading a text gives the tree that the text denotes. -/
theorem read_eq_ok_iff {text : String} {tree : Tree} :
    read text = .ok tree ↔ Denotes text tree := by
  rw [read, Effect.bind_eq_ok]
  constructor
  · rintro ⟨found, scanned, parsed⟩
    refine ⟨found.map Lexeme.token, scan_eq_ok_iff.mp ⟨found, scanned, rfl⟩,
      ofTokens_eq_ok_iff.mp ?_⟩
    split at parsed <;> cases parsed
    assumption
  · rintro ⟨tokens, lexed, derived⟩
    obtain ⟨found, scanned, rfl⟩ := scan_eq_ok_iff.mpr lexed
    refine ⟨found, scanned, ?_⟩
    rw [ofTokens_eq_ok_iff.mpr derived]
    rfl

end Condition

namespace Predicate

open Condition

theorem tree?_eq_some_iff {predicate : Predicate} {tree : Tree} :
    predicate.tree? = some tree ↔ predicate.reading = .ok tree := by
  cases reading : predicate.reading <;> simp [tree?, reading, Except.toOption]

theorem compile_of_denotes {text : String} {tree : Tree} (denotes : Denotes text tree) :
    compile text = .ok ⟨text, .ok tree⟩ := by
  rw [compile, read_eq_ok_iff.mpr denotes]

/-- A predicate of a text has the text as its source and the tree that the text denotes. -/
theorem tree?_of_compile {text : String} {predicate : Predicate}
    (compiled : compile text = .ok predicate) :
    predicate.source = text ∧
      ∀ tree, predicate.tree? = some tree ↔ Denotes text tree := by
  rw [compile] at compiled
  split at compiled
  · rename_i tree read
    cases compiled
    refine ⟨rfl, fun other => ?_⟩
    rw [← read_eq_ok_iff, read]
    simp [tree?, Except.toOption]
  · rename_i misread read
    cases compiled
    refine ⟨rfl, fun other => ?_⟩
    rw [← read_eq_ok_iff, read]
    simp [tree?, Except.toOption]
  · cases compiled

/-- Something is wrong with the text exactly if there is no tree. -/
theorem error?_isSome_iff {predicate : Predicate} :
    predicate.error?.isSome ↔ ¬ ∃ tree, predicate.tree? = some tree := by
  cases reading : predicate.reading <;> simp [error?, tree?, reading, Except.toOption]

/-- A predicate applies exactly if its condition has a value there that counts as true. -/
theorem applies_iff {predicate : Predicate} {context : Value} :
    predicate.applies context = true ↔ ∃ tree value, predicate.tree? = some tree ∧
      tree.evaluate (if context.isNull then .map [] else context) = .ok value ∧
        isTrue value = true := by
  rw [applies, holds, evaluate?]
  generalize (if context.isNull then .map [] else context : Value) = context
  cases predicate.tree? with
  | none => simp
  | some tree => cases value : tree.evaluate context <;> simp [value]

/-- A text is compiled unless digits that denote no number stand behind tokens that can be read;
such a text denotes no tree. The predicate of a text has the tree that the text denotes. If there
is none, an error says why, and the predicate never applies; otherwise it applies exactly in the
contexts where the tree has a value that counts as true. -/
theorem compile_exact (text : String) :
    (Misnumbered false text.toList →
      compile text = .error .notNumeral ∧ ¬ ∃ tree, Denotes text tree) ∧
    (¬ Misnumbered false text.toList → ∃ predicate, compile text = .ok predicate ∧
      predicate.source = text ∧
      (∀ tree, predicate.tree? = some tree ↔ Denotes text tree) ∧
      (predicate.error?.isSome ↔ ¬ ∃ tree, Denotes text tree) ∧
      (predicate.error?.isSome → ∀ context, predicate.applies context = false) ∧
      ∀ context, predicate.applies context = true ↔ ∃ tree value, Denotes text tree ∧
        tree.evaluate (if context.isNull then .map [] else context) = .ok value ∧
          isTrue value = true) := by
  constructor
  · intro misnumbered
    have bad := hasBadDigits_iff.mpr misnumbered
    refine ⟨compile_eq_error_iff.mpr ⟨rfl, bad⟩, fun ⟨tree, denotes⟩ => ?_⟩
    have failed := read_eq_fault_iff.mpr (scan_eq_fault_iff.mpr ⟨rfl, bad⟩)
    rw [read_eq_ok_iff.mpr denotes] at failed
    cases failed
  · intro sound
    cases compiled : compile text with
    | error reason =>
      exact absurd (hasBadDigits_iff.mp (compile_eq_error_iff.mp compiled).2) sound
    | ok predicate =>
      obtain ⟨source, trees⟩ := tree?_of_compile compiled
      have errs : predicate.error?.isSome ↔ ¬ ∃ tree, Denotes text tree := by
        simp only [error?_isSome_iff, trees]
      have applies : ∀ context, predicate.applies context = true ↔ ∃ tree value,
          Denotes text tree ∧
            tree.evaluate (if context.isNull then .map [] else context) = .ok value ∧
              isTrue value = true := fun context => by
        simp only [applies_iff, trees]
      refine ⟨predicate, rfl, source, trees, errs, fun wrong context => ?_, applies⟩
      refine Bool.eq_false_iff.mpr fun holds => ?_
      obtain ⟨tree, value, denotes, -⟩ := (applies context).mp holds
      exact errs.mp wrong ⟨tree, denotes⟩

theorem misnumbered_superscript : Misnumbered false "²".toList := by
  refine @Misnumbered.here ['²'] [] (Text.stops_cons.mpr (by decide +kernel))
    (.whole (by decide) (List.forall_mem_singleton.mpr (by decide)) Text.stops_nil ?_)
    (.inl ⟨'²', List.mem_cons_self, by decide, by decide⟩)
  rintro rest ⟨⟩

theorem compile_exact_applied :
    (Misnumbered false "²".toList ∧ compile "²" = .error .notNumeral) ∧
    ¬ Misnumbered false "(".toList ∧ ∃ predicate, compile "(" = .ok predicate ∧
      predicate.error?.isSome ∧ ∀ context, predicate.applies context = false := by
  have scanned : scan "(" = .ok [⟨.openParen, 0, 1⟩] := by cbv
  have sound : ¬ Misnumbered false "(".toList := by
    rw [← hasBadDigits_iff, HasBadDigits, scanned]
    intro failed
    cases failed
  obtain ⟨predicate, compiled, -, -, -, never, -⟩ := (compile_exact "(").2 sound
  have wrong : predicate.error?.isSome := by
    have found : compile "(" = .ok ⟨"(", .error ⟨.unexpected .finish, 1⟩⟩ := by cbv
    cases compiled.symm.trans found
    rfl
  exact ⟨⟨misnumbered_superscript, ((compile_exact "²").1 misnumbered_superscript).1⟩, sound,
    predicate, compiled, wrong, never wrong⟩

/-- Not every text gives a predicate: a superscript is a digit that denotes no number. -/
theorem superscript_is_not_compiled :
    compile "²" = .error .notNumeral ∧ ¬ ∀ text, ∃ predicate, compile text = .ok predicate := by
  have refused : compile "²" = .error .notNumeral :=
    compile_eq_error_iff.mpr ⟨rfl, hasBadDigits_iff.mpr misnumbered_superscript⟩
  refine ⟨refused, fun every => ?_⟩
  obtain ⟨predicate, compiled⟩ := every "²"
  rw [refused] at compiled
  cases compiled

end Predicate

end TextGrammar
