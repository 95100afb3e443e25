import TextGrammar.Proofs.Condition.Dependence
import TextGrammar.Proofs.Traversal
import TextGrammar.Rule.Pick

/-!
What decides on a conditional rule. Main statement: in a context its branches come to exactly one
thing, the values of the first branch whose guard says yes, or those of the first default one, or
the failure of a guard before; what a compiled condition says depends on the entries of the context
alone, and the rule gives the text of one of the values.
-/

namespace TextGrammar

open Effect

variable {context : Table String} {given : Value} {branches : List Branch}

/-- The value has the texts of the context under their names, and nothing under any other. -/
def Value.Presents (context : Table String) (given : Value) : Prop :=
  ∀ key, given.lookup key = .ok (((context.get? key).map Value.str).getD .null)

theorem Value.presents_contextValue (context : Table String) :
    (Guard.contextValue context).Presents context := by
  intro key
  obtain ⟨entries⟩ := context
  refine congrArg (fun found => Except.ok (Option.getD found Value.null)) ?_
  simp only [Table.get?]
  induction entries with
  | nil => rfl
  | cons entry rest ih =>
    obtain ⟨name, text⟩ := entry
    rw [List.map_cons, Fields.get?_cons, ih]
    by_cases same : name = key
    · simp [same]
    · simp [same]

/-! ### Guards -/

/-- The text is a condition that has a value in the map, and the value counts as true. -/
def Predicate.TrueIn (predicate : Predicate) (given : Value) : Prop :=
  ∃ tree value, predicate.reading = .ok tree ∧ tree.evaluate given = .ok value ∧
    Condition.isTrue value = true

/-- Nothing but the entries of the context makes a difference for a condition. -/
theorem Condition.Tree.evaluate_of_presents (tree : Tree) (presents : given.Presents context) :
    tree.evaluate given = tree.evaluate (Guard.contextValue context) := by
  refine matching_eq_iff.mp (indistinct_eq.evaluate tree fun key _ => matching_eq_iff.mpr ?_)
  exact (presents key).trans (Value.presents_contextValue context key).symm

theorem Predicate.trueIn_iff (predicate : Predicate) (presents : given.Presents context) :
    predicate.TrueIn given ↔ predicate.holds (Guard.contextValue context) = true := by
  obtain ⟨source, reading⟩ := predicate
  cases reading with
  | error misread => simp [TrueIn, holds, evaluate?, tree?, Except.toOption]
  | ok tree =>
    have same := tree.evaluate_of_presents presents
    cases evaluated : tree.evaluate (Guard.contextValue context) with
    | error reason => simp [TrueIn, holds, evaluate?, tree?, Except.toOption, same, evaluated]
    | ok value => simp [TrueIn, holds, evaluate?, tree?, Except.toOption, same, evaluated]

namespace Guard

/-- What a guard says in a context: a test is asked, and a compiled condition says whether it is
true in any map that presents the context. -/
def Answers (context : Table String) (outcome : Except Failure Bool) : Guard → Prop
  | test ask => ask context = outcome
  | condition predicate => ∃ answer, outcome = .ok answer ∧
    ∀ given : Value, given.Presents context → (answer = true ↔ predicate.TrueIn given)

theorem answers_iff {guard : Guard} {outcome : Except Failure Bool} :
    guard.Answers context outcome ↔ guard.answer context = outcome := by
  cases guard with
  | test ask => exact Iff.rfl
  | condition predicate =>
    constructor
    · rintro ⟨answer, rfl, answers⟩
      have presents := Value.presents_contextValue context
      have same := (answers _ presents).trans (predicate.trueIn_iff presents)
      exact congrArg Except.ok (Bool.eq_iff_iff.mpr same.symm)
    · rintro rfl
      exact ⟨_, rfl, fun given presents => (predicate.trueIn_iff presents).symm⟩

theorem answers_condition (presents : given.Presents context) {predicate : Predicate}
    {answer : Bool} : (condition predicate).Answers context (.ok answer) ↔
      (answer = true ↔ predicate.TrueIn given) := by
  rw [answers_iff, predicate.trueIn_iff presents, Guard.answer, Except.ok.injEq,
    Bool.eq_iff_iff]
  exact Iff.comm

end Guard

/-- The guard of the branch says no, if it has one. -/
def Branch.Passed (context : Table String) (branch : Branch) : Prop :=
  ∀ guard, branch.guard = some guard → guard.Answers context (.ok false)

theorem Branch.passed_iff {branch : Branch} :
    branch.Passed context ↔ branch.answer context = .ok false := by
  cases found : branch.guard with
  | none => simp [Passed, answer, found]
  | some guard => simp [Passed, answer, found, Guard.answers_iff]

theorem Branch.all_passed_iff : (∀ other ∈ branches, other.Passed context) ↔
    ∀ other ∈ branches, other.answer context = .ok false :=
  forall₂_congr fun _ _ => passed_iff

theorem Branch.answer_of_guard {branch : Branch} {guard : Guard}
    (guarded : branch.guard = some guard) : branch.answer context = guard.answer context := by
  simp [answer, guarded]

/-! ### Decisions -/

/-- What the branches of a conditional rule come to in a context. -/
inductive Decides (context : Table String) (branches : List Branch) :
    Except Failure (List Value) → Prop where
  | guarded {front back : List Branch} {branch : Branch} {guard : Guard}
      (split : branches = front ++ branch :: back)
      (earlier : ∀ other ∈ front, other.Passed context) (guards : branch.guard = some guard)
      (answers : guard.Answers context (.ok true)) : Decides context branches (.ok branch.values)
  | failed {front back : List Branch} {branch : Branch} {guard : Guard} {failure : Failure}
      (split : branches = front ++ branch :: back)
      (earlier : ∀ other ∈ front, other.Passed context) (guards : branch.guard = some guard)
      (answers : guard.Answers context (.error failure)) : Decides context branches (.error failure)
  | default {front back : List Branch} {branch : Branch} {values : List Value}
      (never : ∀ other ∈ branches, other.Passed context)
      (split : branches = front ++ branch :: back)
      (earlier : ∀ other ∈ front, other.guard = none → other.fallback = none)
      (unguarded : branch.guard = none) (offers : branch.fallback = some values) :
      Decides context branches (.ok values)
  | nothing (never : ∀ other ∈ branches, other.Passed context)
      (undefaulted : ∀ other ∈ branches, other.guard = none → other.fallback = none) :
      Decides context branches (.ok [])

namespace Rule

theorem not_isDefault_iff {branch : Branch} :
    branch.isDefault = false ↔ (branch.guard = none → branch.fallback = none) := by
  cases guarded : branch.guard <;> cases offered : branch.fallback <;>
    simp [Branch.isDefault, guarded, offered]

theorem fallback_of_first {front back : List Branch} {branch : Branch} {values : List Value}
    (split : branches = front ++ branch :: back)
    (earlier : ∀ other ∈ front, other.guard = none → other.fallback = none)
    (unguarded : branch.guard = none) (offers : branch.fallback = some values) :
    fallback branches = values := by
  have first : branches.find? Branch.isDefault = some branch := by
    refine List.find?_eq_some_iff_append.mpr ⟨?_, front, back, split, fun other member => ?_⟩
    · simp [Branch.isDefault, unguarded, offers]
    · rw [not_isDefault_iff.mpr (earlier other member)]
      rfl
  simp only [fallback, first, offers, Option.getD_some]

theorem fallback_of_none (undefaulted : ∀ other ∈ branches, other.guard = none →
    other.fallback = none) : fallback branches = [] := by
  have none : branches.find? Branch.isDefault = none := by
    refine List.find?_eq_none.mpr fun other member => ?_
    rw [not_isDefault_iff.mpr (undefaulted other member)]
    exact Bool.false_ne_true
  simp only [fallback, none]

theorem chosen_of_findM? {found : Option Branch}
    (search : branches.findM? (Branch.answer context) = .ok found) :
    chosen context branches = .ok (found.elim (fallback branches) Branch.values) := by
  rw [chosen, search]
  cases found <;> rfl

theorem chosen_of_findM?_eq_error {failure : Failure}
    (search : branches.findM? (Branch.answer context) = .error failure) :
    chosen context branches = .error failure := by
  rw [chosen, search]
  rfl

theorem chosen_of_decides {outcome : Except Failure (List Value)}
    (decides : Decides context branches outcome) : chosen context branches = outcome := by
  cases decides with
  | @guarded front back branch guard split earlier guards answers =>
    refine chosen_of_findM? (findM?_eq_some_iff.mpr
      ⟨front, back, split, Branch.all_passed_iff.mp earlier, ?_⟩)
    rw [Branch.answer_of_guard guards, Guard.answers_iff.mp answers]
  | @failed front back branch guard failure split earlier guards answers =>
    refine chosen_of_findM?_eq_error (findM?_eq_error_iff.mpr
      ⟨front, branch, back, split, Branch.all_passed_iff.mp earlier, ?_⟩)
    rw [Branch.answer_of_guard guards, Guard.answers_iff.mp answers]
  | default never split earlier unguarded offers =>
    rw [chosen_of_findM? (findM?_eq_none_iff.mpr (Branch.all_passed_iff.mp never))]
    exact congrArg Except.ok (fallback_of_first split earlier unguarded offers)
  | nothing never undefaulted =>
    rw [chosen_of_findM? (findM?_eq_none_iff.mpr (Branch.all_passed_iff.mp never))]
    exact congrArg Except.ok (fallback_of_none undefaulted)

/-- If no guard says yes, the branches come to the first default. -/
theorem decides_fallback (never : ∀ other ∈ branches, other.Passed context) :
    Decides context branches (.ok (fallback branches)) := by
  cases first : branches.find? Branch.isDefault with
  | none =>
    have undefaulted : ∀ other ∈ branches, other.guard = none → other.fallback = none := by
      intro other member
      have skipped := List.find?_eq_none.mp first other member
      exact not_isDefault_iff.mp (Bool.eq_false_of_not_eq_true skipped)
    rw [fallback_of_none undefaulted]
    exact .nothing never undefaulted
  | some branch =>
    obtain ⟨isDefault, front, back, split, before⟩ := List.find?_eq_some_iff_append.mp first
    have earlier : ∀ other ∈ front, other.guard = none → other.fallback = none := by
      intro other member
      exact not_isDefault_iff.mp (by simpa using before other member)
    simp only [Branch.isDefault, Bool.and_eq_true, Option.isNone_iff_eq_none,
      Option.isSome_iff_exists] at isDefault
    obtain ⟨unguarded, values, offers⟩ := isDefault
    rw [fallback_of_first split earlier unguarded offers]
    exact .default never split earlier unguarded offers

theorem decides_chosen (context : Table String) (branches : List Branch) :
    Decides context branches (chosen context branches) := by
  -- an answer that is not no comes from a guard
  have guarded {branch : Branch} {answer : Except Failure Bool}
      (answered : branch.answer context = answer) (counts : answer ≠ .ok false) :
      ∃ guard, branch.guard = some guard ∧ guard.Answers context answer := by
    cases guards : branch.guard with
    | none =>
      rw [Branch.answer, guards] at answered
      exact absurd answered.symm counts
    | some guard =>
      rw [Branch.answer_of_guard guards] at answered
      exact ⟨guard, rfl, Guard.answers_iff.mpr answered⟩
  cases search : branches.findM? (Branch.answer context) with
  | error failure =>
    obtain ⟨front, branch, back, split, earlier, answered⟩ := findM?_eq_error_iff.mp search
    obtain ⟨guard, guards, answers⟩ := guarded answered nofun
    rw [chosen_of_findM?_eq_error search]
    exact .failed split (Branch.all_passed_iff.mpr earlier) guards answers
  | ok found =>
    rw [chosen_of_findM? search]
    cases found with
    | some branch =>
      obtain ⟨front, back, split, earlier, answered⟩ := findM?_eq_some_iff.mp search
      obtain ⟨guard, guards, answers⟩ := guarded answered nofun
      exact .guarded split (Branch.all_passed_iff.mpr earlier) guards answers
    | none => exact decides_fallback (Branch.all_passed_iff.mpr (findM?_eq_none_iff.mp search))

/-- The values that a conditional rule chooses are what its branches come to, and they come to
nothing else. -/
theorem decides_iff {outcome : Except Failure (List Value)} :
    Decides context branches outcome ↔ chosen context branches = outcome := by
  constructor
  · exact chosen_of_decides
  · rintro rfl
    exact decides_chosen context branches

end Rule

theorem Decides.unique {outcome other : Except Failure (List Value)}
    (decides : Decides context branches outcome) (decides' : Decides context branches other) :
    outcome = other :=
  (Rule.decides_iff.mp decides).symm.trans (Rule.decides_iff.mp decides')

/-! ### What is given -/

/-- What comes of a decision: the failure of a guard, or the text of one of the values, or nothing
if there are none. -/
def Rule.ComesOf : Except Failure (List Value) → Except Failure String → Prop
  | .error failure, outcome => outcome = .error failure
  | .ok values, outcome => (values = [] ∧ outcome = .ok "") ∨
    ∃ value ∈ values, outcome = value.text.mapError .fault

namespace Pick

variable {ρ ω : Type} [Draws ρ]

theorem comesOf_uniform (values : List Value) (sources : Sources ρ ω) :
    Rule.ComesOf (.ok values) (uniform values sources).1 := by
  unfold uniform
  split
  · rename_i positive
    exact .inr ⟨_, List.get_mem values _, rfl⟩
  · rename_i nonpositive
    exact .inl ⟨by simpa using nonpositive, rfl⟩

/-- A conditional rule gives what comes of what its branches come to. -/
theorem comesOf_conditional {outcome : Except Failure (List Value)}
    (decides : Decides context branches outcome) (sources : Sources ρ ω) :
    Rule.ComesOf outcome ((Rule.conditional branches : Rule ω).pick context sources).1 := by
  rw [Rule.pick, bind_apply, Rule.decides_iff.mp decides]
  cases outcome with
  | error failure => rfl
  | ok values => exact comesOf_uniform values _

end Pick

end TextGrammar
