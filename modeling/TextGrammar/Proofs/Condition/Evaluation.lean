import TextGrammar.Condition.Evaluation
import TextGrammar.Proofs.Effect
import TextGrammar.Proofs.Number.Overflow

/-!
Evaluations that fail. Main statement: in a context of texts the evaluation of a condition fails
exactly if it meets a comparison of order with an integer literal that is beyond the range of
floating-point numbers.
-/

namespace TextGrammar.Condition

open Effect

/-! ### Comparisons -/

/-- The operators that ask for the order of their operands. -/
def Operator.orders : Operator → Bool
  | less | atMost | greater | atLeast => true
  | strictEqual | strictUnequal | equal | unequal => false

/-- An integer beyond the range of floating-point numbers. -/
def Vast (value : Value) : Prop :=
  ∃ number : Int, value = .int number ∧ Binary64.overflow ≤ number.natAbs

theorem toBinary64_int_eq_error_iff {number : Int} {reason : Fault} :
    (Number.int number).toBinary64 = .error reason ↔
      reason = .tooLarge ∧ Binary64.overflow ≤ number.natAbs := by
  rw [← Binary64.ofInt?_eq_none_iff, Number.toBinary64]
  cases Binary64.ofInt? number with
  | none => simp [eq_comm]
  | some nearest => simp

/-- Truth values and the empty text are numbers that are small enough. -/
theorem toBinary64_small_ne_error {number : Int} (small : number.natAbs ≤ 1) (reason : Fault) :
    (Number.int number).toBinary64 ≠ .error reason := by
  intro failed
  have beyond := (toBinary64_int_eq_error_iff.mp failed).2
  exact absurd beyond (Nat.not_le_of_lt (Binary64.lt_overflow (by omega)))

theorem magnitude_eq_error_iff {value : Value} {reason : Fault} :
    magnitude value = .error reason ↔ reason = .tooLarge ∧ Vast value := by
  cases value with
  | list items => simp [magnitude, numeric?, Value.number?, Vast]
  | map entries => simp [magnitude, numeric?, Value.number?, Vast]
  | scalar content =>
    cases content with
    | null | stamp | binary =>
      simp [magnitude, numeric?, Value.number?, Scalar.number?, Vast]
    | bool truth =>
      have small : ((truth.toNat : Int)).natAbs ≤ 1 := by cases truth <;> decide
      have never := toBinary64_small_ne_error small reason
      simpa [magnitude, numeric?, Value.number?, Scalar.number?, Vast] using never
    | number number =>
      cases number with
      | int number =>
        rw [show magnitude (.int number) = (Number.int number).toBinary64 from rfl,
          toBinary64_int_eq_error_iff]
        simp [Vast]
      | real number =>
        simp [magnitude, numeric?, Value.number?, Scalar.number?, Number.toBinary64, Vast]
    | str text =>
      have never := @toBinary64_small_ne_error 0 (by decide) reason
      by_cases blank : (Text.trim text.toList).isEmpty
      · simpa [magnitude, numeric?, blank, Vast] using never
      · cases read : Numeral.real? (Text.trim text.toList) with
        | none => simp [magnitude, numeric?, blank, read, Vast]
        | some number => simp [magnitude, numeric?, blank, read, Number.toBinary64, Vast]

theorem order?_eq_error_iff {left right : Value} {reason : Fault} :
    order? left right = .error reason ↔ reason = .tooLarge ∧ (Vast left ∨ Vast right) := by
  unfold order?
  split
  · rename_i x y
    simp [Vast]
  · have second (m : Binary64) :
        (do return Binary64.compare? m (← magnitude right)) = Except.error reason ↔
          reason = .tooLarge ∧ Vast right := by
      rw [bind_eq_error, magnitude_eq_error_iff]
      simp
    rw [bind_eq_error, magnitude_eq_error_iff]
    simp only [second]
    constructor
    · rintro (⟨same, vast⟩ | ⟨m, -, same, vast⟩)
      · exact ⟨same, .inl vast⟩
      · exact ⟨same, .inr vast⟩
    · rintro ⟨same, vast⟩
      cases first : magnitude left with
      | error other => exact .inl ⟨same, (magnitude_eq_error_iff.mp first).2⟩
      | ok m =>
        refine .inr ⟨m, rfl, same, vast.resolve_left fun leftVast => ?_⟩
        have failed := magnitude_eq_error_iff.mpr ⟨rfl, leftVast⟩
        rw [first] at failed
        cases failed

theorem Operator.holds_eq_error_iff {operator : Operator} {left right : Value} {reason : Fault} :
    operator.holds left right = .error reason ↔
      operator.orders ∧ reason = .tooLarge ∧ (Vast left ∨ Vast right) := by
  cases operator with
  | strictEqual | strictUnequal | equal | unequal => simp [holds, orders]
  | less | atMost | greater | atLeast =>
    rw [← order?_eq_error_iff, holds, bind_eq_error]
    simp [orders]

/-! ### Conditions -/

/-- The condition has a value, which counts as true or not. -/
def Counts (context : Value) (tree : Tree) (truth : Bool) : Prop :=
  ∃ value, tree.evaluate context = .ok value ∧ isTrue value = truth

/-- A literal beyond the range of floating-point numbers. -/
def VastLiteral (tree : Tree) : Prop := ∃ value, tree = .literal value ∧ Vast (.scalar value)

/-- The evaluation meets a comparison of order with a literal beyond the range of floating-point
numbers. A connective is evaluated up to the operand that decides it. -/
inductive Overflows (context : Value) : Tree → Prop where
  | left {operator : Operator} {left right : Tree} (inside : Overflows context left) :
      Overflows context (.compare operator left right)
  | right {operator : Operator} {left right : Tree} (inside : Overflows context right) :
      Overflows context (.compare operator left right)
  | order {operator : Operator} {left right : Tree} (orders : operator.orders)
      (operand : VastLiteral left ∨ VastLiteral right) :
      Overflows context (.compare operator left right)
  | all {before behind : List Tree} {operand : Tree}
      (undecided : ∀ other ∈ before, Counts context other true)
      (inside : Overflows context operand) : Overflows context (.all (before ++ operand :: behind))
  | any {before behind : List Tree} {operand : Tree}
      (undecided : ∀ other ∈ before, Counts context other false)
      (inside : Overflows context operand) : Overflows context (.any (before ++ operand :: behind))
  | not {operand : Tree} (inside : Overflows context operand) : Overflows context (.not operand)

/-- An operand overflows, and all before it leave the connective undecided. -/
def OverflowsBehind (context : Value) (truth : Bool) (operands : List Tree) : Prop :=
  ∃ before operand behind, operands = before ++ operand :: behind ∧
    (∀ other ∈ before, Counts context other truth) ∧ Overflows context operand

section

variable {context : Value} {truth : Bool} {operand : Tree} {operands rest : List Tree}

theorem overflowsBehind_nil : ¬ OverflowsBehind context truth [] := by
  rintro ⟨before, operand, behind, split, -⟩
  simp at split

theorem overflowsBehind_cons :
    OverflowsBehind context truth (operand :: rest) ↔
      Overflows context operand ∨
        Counts context operand truth ∧ OverflowsBehind context truth rest := by
  constructor
  · rintro ⟨before, other, behind, split, undecided, inside⟩
    cases before with
    | nil =>
      cases split
      exact .inl inside
    | cons first before =>
      cases split
      obtain ⟨counts, undecided⟩ := List.forall_mem_cons.mp undecided
      exact .inr ⟨counts, before, other, behind, rfl, undecided, inside⟩
  · rintro (inside | ⟨counts, before, other, behind, rfl, undecided, inside⟩)
    · exact ⟨[], operand, rest, rfl, List.forall_mem_nil _, inside⟩
    · have all : ∀ earlier ∈ operand :: before, Counts context earlier truth :=
        List.forall_mem_cons.mpr ⟨counts, undecided⟩
      exact ⟨operand :: before, other, behind, rfl, all, inside⟩

theorem overflows_all_iff :
    Overflows context (.all operands) ↔ OverflowsBehind context true operands := by
  constructor
  · intro overflows
    cases overflows with
    | all undecided inside => exact ⟨_, _, _, rfl, undecided, inside⟩
  · rintro ⟨before, operand, behind, rfl, undecided, inside⟩
    exact .all undecided inside

theorem overflows_any_iff :
    Overflows context (.any operands) ↔ OverflowsBehind context false operands := by
  constructor
  · intro overflows
    cases overflows with
    | any undecided inside => exact ⟨_, _, _, rfl, undecided, inside⟩
  · rintro ⟨before, operand, behind, rfl, undecided, inside⟩
    exact .any undecided inside

theorem overflows_not_iff : Overflows context (.not operand) ↔ Overflows context operand := by
  constructor
  · intro overflows
    cases overflows with
    | not inside => exact inside
  · exact .not

/-- An operand fails, or it leaves the connective undecided and a later one fails. -/
theorem holdAll_cons_eq_error_iff {reason : Fault} :
    Tree.holdAll context (operand :: rest) = .error reason ↔
      operand.evaluate context = .error reason ∨
        Counts context operand true ∧ Tree.holdAll context rest = .error reason := by
  rw [Tree.holdAll, bind_eq_error]
  refine or_congr_right ⟨?_, ?_⟩
  · rintro ⟨value, evaluated, failed⟩
    cases counts : isTrue value with
    | true =>
      rw [if_pos counts] at failed
      exact ⟨⟨value, evaluated, counts⟩, failed⟩
    | false =>
      rw [if_neg (by simp [counts])] at failed
      cases failed
  · rintro ⟨⟨value, evaluated, counts⟩, failed⟩
    exact ⟨value, evaluated, by rwa [if_pos counts]⟩

theorem holdAny_cons_eq_error_iff {reason : Fault} :
    Tree.holdAny context (operand :: rest) = .error reason ↔
      operand.evaluate context = .error reason ∨
        Counts context operand false ∧ Tree.holdAny context rest = .error reason := by
  rw [Tree.holdAny, bind_eq_error]
  refine or_congr_right ⟨?_, ?_⟩
  · rintro ⟨value, evaluated, failed⟩
    cases counts : isTrue value with
    | true =>
      rw [if_pos counts] at failed
      cases failed
    | false =>
      rw [if_neg (by simp [counts])] at failed
      exact ⟨⟨value, evaluated, counts⟩, failed⟩
  · rintro ⟨⟨value, evaluated, counts⟩, failed⟩
    exact ⟨value, evaluated, by rwa [if_neg (by simp [counts])]⟩

end

section

variable {fields : Fields} (texts : ∀ entry ∈ fields, ∃ text, entry.2 = .str text)

include texts

/-- A context of texts has texts only. -/
theorem text_of_get (key : String) :
    fields.get key = .null ∨ ∃ text, fields.get key = .str text := by
  rw [Fields.get]
  cases found : fields.get? key with
  | none => exact .inl rfl
  | some value =>
    obtain ⟨entry, first, rfl⟩ := Option.map_eq_some_iff.mp found
    exact .inr (texts entry (List.mem_of_find?_eq_some first))

/-- Only literals are too large. -/
theorem vast_iff {tree : Tree} {value : Value}
    (evaluated : tree.evaluate (.map fields) = .ok value) : Vast value ↔ VastLiteral tree := by
  constructor
  · rintro ⟨number, rfl, beyond⟩
    cases tree with
    | literal value =>
      cases evaluated
      exact ⟨_, rfl, number, rfl, beyond⟩
    | lookup key =>
      have found : fields.get key = .int number := Except.ok.inj evaluated
      rcases text_of_get texts key with null | ⟨text, is⟩
      · rw [null] at found
        cases found
      · rw [is] at found
        cases found
    | compare operator left right =>
      obtain ⟨x, -, evaluated⟩ := bind_eq_ok.mp evaluated
      obtain ⟨y, -, evaluated⟩ := bind_eq_ok.mp evaluated
      obtain ⟨truth, -, evaluated⟩ := bind_eq_ok.mp evaluated
      cases evaluated
    | all operands | any operands | not operand =>
      obtain ⟨truth, -, evaluated⟩ := bind_eq_ok.mp evaluated
      cases evaluated
  · rintro ⟨content, rfl, vast⟩
    cases evaluated
    exact vast

/-- A comparison fails if an operand does, or if it is one of order with an operand that is too
large. -/
theorem compare_eq_error_iff {operator : Operator} {left right : Tree} {reason : Fault}
    (first : ∀ {reason}, left.evaluate (.map fields) = .error reason ↔
      reason = .tooLarge ∧ Overflows (.map fields) left)
    (second : ∀ {reason}, right.evaluate (.map fields) = .error reason ↔
      reason = .tooLarge ∧ Overflows (.map fields) right) :
    (Tree.compare operator left right).evaluate (.map fields) = .error reason ↔
      reason = .tooLarge ∧ Overflows (.map fields) (.compare operator left right) := by
  rw [Tree.evaluate, bind_eq_error]
  constructor
  · rintro (failed | ⟨x, evaluated, failed⟩)
    · obtain ⟨same, inside⟩ := first.mp failed
      exact ⟨same, .left inside⟩
    · rcases bind_eq_error.mp failed with failed | ⟨y, evaluatedRight, failed⟩
      · obtain ⟨same, inside⟩ := second.mp failed
        exact ⟨same, .right inside⟩
      · rcases bind_eq_error.mp failed with failed | ⟨truth, -, failed⟩
        · obtain ⟨orders, same, vast⟩ := Operator.holds_eq_error_iff.mp failed
          rw [vast_iff texts evaluated, vast_iff texts evaluatedRight] at vast
          exact ⟨same, .order orders vast⟩
        · cases failed
  · rintro ⟨rfl, overflows⟩
    cases evaluated : left.evaluate (.map fields) with
    | error other =>
      obtain ⟨rfl, -⟩ := first.mp evaluated
      exact .inl rfl
    | ok x =>
      refine .inr ⟨x, rfl, bind_eq_error.mpr ?_⟩
      cases evaluatedRight : right.evaluate (.map fields) with
      | error other =>
        obtain ⟨rfl, -⟩ := second.mp evaluatedRight
        exact .inl rfl
      | ok y =>
        refine .inr ⟨y, rfl, bind_eq_error.mpr (.inl ?_)⟩
        cases overflows with
        | left inside =>
          rw [first.mpr ⟨rfl, inside⟩] at evaluated
          cases evaluated
        | right inside =>
          rw [second.mpr ⟨rfl, inside⟩] at evaluatedRight
          cases evaluatedRight
        | order orders operand =>
          rw [← vast_iff texts evaluated, ← vast_iff texts evaluatedRight] at operand
          exact Operator.holds_eq_error_iff.mpr ⟨orders, rfl, operand⟩

end

mutual

/-- In a context of texts an evaluation fails exactly if it overflows. -/
theorem evaluate_eq_error_iff {fields : Fields}
    (texts : ∀ entry ∈ fields, ∃ text, entry.2 = .str text) (tree : Tree) {reason : Fault} :
    tree.evaluate (.map fields) = .error reason ↔
      reason = .tooLarge ∧ Overflows (.map fields) tree := by
  cases tree with
  | literal value =>
    refine iff_of_false nofun ?_
    rintro ⟨-, overflows⟩
    cases overflows
  | lookup key =>
    refine iff_of_false nofun ?_
    rintro ⟨-, overflows⟩
    cases overflows
  | compare operator left right =>
    exact compare_eq_error_iff texts (evaluate_eq_error_iff texts left)
      (evaluate_eq_error_iff texts right)
  | all operands =>
    rw [overflows_all_iff, ← holdAll_eq_error_iff texts operands, Tree.evaluate, bind_eq_error]
    simp
  | any operands =>
    rw [overflows_any_iff, ← holdAny_eq_error_iff texts operands, Tree.evaluate, bind_eq_error]
    simp
  | not operand =>
    rw [overflows_not_iff, ← evaluate_eq_error_iff texts operand, Tree.evaluate, bind_eq_error]
    simp

theorem holdAll_eq_error_iff {fields : Fields}
    (texts : ∀ entry ∈ fields, ∃ text, entry.2 = .str text) (operands : List Tree)
    {reason : Fault} :
    Tree.holdAll (.map fields) operands = .error reason ↔
      reason = .tooLarge ∧ OverflowsBehind (.map fields) true operands := by
  cases operands with
  | nil => exact iff_of_false nofun fun both => overflowsBehind_nil both.2
  | cons operand rest =>
    rw [holdAll_cons_eq_error_iff, evaluate_eq_error_iff texts operand,
      holdAll_eq_error_iff texts rest, overflowsBehind_cons, and_or_left, and_left_comm]

theorem holdAny_eq_error_iff {fields : Fields}
    (texts : ∀ entry ∈ fields, ∃ text, entry.2 = .str text) (operands : List Tree)
    {reason : Fault} :
    Tree.holdAny (.map fields) operands = .error reason ↔
      reason = .tooLarge ∧ OverflowsBehind (.map fields) false operands := by
  cases operands with
  | nil => exact iff_of_false nofun fun both => overflowsBehind_nil both.2
  | cons operand rest =>
    rw [holdAny_cons_eq_error_iff, evaluate_eq_error_iff texts operand,
      holdAny_eq_error_iff texts rest, overflowsBehind_cons, and_or_left, and_left_comm]

end

end TextGrammar.Condition
