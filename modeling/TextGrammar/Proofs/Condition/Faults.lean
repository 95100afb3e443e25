import TextGrammar.Condition.Predicate
import TextGrammar.Proofs.Condition.Exact
import TextGrammar.Proofs.Effect

/-!
Faults of conditions. Main statement: a text is compiled, with a tree or with a problem, exactly if
all digits of it denote numbers.
-/

namespace TextGrammar

namespace Condition

theorem numberOf_eq_error {lexeme : List Char} {reason : Fault}
    (failed : numberOf lexeme = .error reason) : reason = .notNumeral := by
  unfold numberOf at failed
  split at failed <;> split at failed <;> cases failed <;> rfl

theorem first_eq_fault {afterDot : Bool} {c : Char} {rest : List Char} {reason : Fault}
    (failed : first afterDot c rest = .error (.fault reason)) : reason = .notNumeral := by
  unfold first at failed
  split at failed
  · split at failed <;> cases failed
  · split at failed
    · cases failed
    · split at failed
      · simp only at failed
        split at failed
        · cases failed
        · rename_i denotes
          cases failed
          exact numberOf_eq_error denotes
      · split at failed <;> cases failed

theorem lexemesFrom_eq_fault {position : Nat} {afterDot : Bool} {text : List Char} {reason : Fault}
    {place : Nat} (failed : lexemesFrom position afterDot text = .error (.fault reason, place)) :
    reason = .notNumeral := by
  induction position, afterDot, text using lexemesFrom.induct with
  | case1 =>
    rw [lexemesFrom] at failed
    cases failed
  | case2 position afterDot c rest blank ih =>
    rw [lexemesFrom, if_pos blank] at failed
    exact ih failed
  | case3 position afterDot c rest filled stop stopped =>
    rw [lexemesFrom, if_neg filled, stopped] at failed
    cases failed
    exact first_eq_fault stopped
  | case4 position afterDot c rest filled token count begins stop stopped ih =>
    rw [lexemesFrom, if_neg filled, begins] at failed
    simp only [stopped] at failed
    cases failed
    exact ih stopped
  | case5 position afterDot c rest filled token count begins more read ih =>
    rw [lexemesFrom, if_neg filled, begins] at failed
    simp only [read] at failed
    cases failed

/-- Digits of the text denote no number. -/
def HasBadDigits (text : String) : Prop := scan text = .error (.fault .notNumeral)

theorem hasBadDigits_nonempty {text : String} (digits : HasBadDigits text) : text ≠ "" := by
  rintro rfl
  simp [HasBadDigits, scan, lexemes, lexemesFrom] at digits

theorem scan_eq_fault_iff {text : String} {reason : Fault} :
    scan text = .error (.fault reason) ↔ reason = .notNumeral ∧ HasBadDigits text := by
  constructor
  · intro scanned
    have digits : reason = .notNumeral := by
      unfold scan at scanned
      split at scanned
      · cases scanned
      · cases scanned
      · rename_i stopped
        cases scanned
        exact lexemesFrom_eq_fault stopped
    subst digits
    exact ⟨rfl, scanned⟩
  · rintro ⟨rfl, digits⟩
    exact digits

/-- Reading has a fault only if scanning has it: no tokens are wanted behind the end. -/
theorem read_eq_fault_iff {text : String} {reason : Fault} :
    read text = .error (.fault reason) ↔ scan text = .error (.fault reason) := by
  constructor
  · intro failed
    rcases Effect.bind_eq_error.mp failed with scanned | ⟨found, -, parsed⟩
    · exact scanned
    · rcases ofTokens_outcome (found.map Lexeme.token) with ⟨form, same⟩ | ⟨problem, rest, is, -⟩
      · rw [← same, ofTokens_tokens form] at parsed
        cases parsed
      · rw [is] at parsed
        cases parsed
  · exact fun scanned => Effect.bind_eq_error.mpr (.inl scanned)

end Condition

/-- A text is not compiled exactly if digits of it denote no number. -/
theorem Predicate.compile_eq_error_iff {text : String} {reason : Fault} :
    compile text = .error reason ↔ reason = .notNumeral ∧ Condition.HasBadDigits text := by
  rw [← Condition.scan_eq_fault_iff, ← Condition.read_eq_fault_iff, compile]
  split
  · rename_i tree read
    simp [read]
  · rename_i misread read
    simp [read]
  · rename_i other read
    simp [read]

end TextGrammar
