import TextGrammar.Rule.Pick

/-!
Resolving conditional rules. Main statement: what such a rule gives depends on its default branches
in their order and on its branches with a readable guard in theirs, so neither on how the two orders
are put together nor on the branches whose guard is no condition.
-/

namespace TextGrammar

/-- The guard is a test, or a condition whose text is one. -/
def Guard.isReadable : Guard → Bool
  | condition predicate => predicate.tree?.isSome
  | test _ => true

namespace Branch

/-- The branch has a guard that can be read. -/
def isReadable (branch : Branch) : Bool := branch.guard.any Guard.isReadable

variable {branch : Branch} {context : Table String}

theorem isDefault_of_isReadable (readable : branch.isReadable = true) :
    branch.isDefault = false := by
  obtain ⟨guard, found, -⟩ := (Option.any_eq_true ..).mp readable
  simp [isDefault, found]

/-- The guard of a branch that cannot be read is a condition whose text is none. -/
theorem guard_of_unreadable (unreadable : branch.isReadable = false) : branch.guard = none ∨
    ∃ predicate : Predicate, branch.guard = some (.condition predicate) ∧
      predicate.tree? = none := by
  cases found : branch.guard with
  | none => exact .inl rfl
  | some guard =>
    cases guard with
    | test => simp [isReadable, found, Guard.isReadable] at unreadable
    | condition predicate =>
      have read : predicate.tree? = none := by
        simpa [isReadable, found, Guard.isReadable] using unreadable
      exact .inr ⟨predicate, rfl, read⟩

theorem answer_of_unreadable (unreadable : branch.isReadable = false) :
    branch.answer context = .ok false := by
  rcases guard_of_unreadable unreadable with none | ⟨predicate, found, read⟩
  · simp [answer, none]
  · simp [answer, found, Guard.answer, Predicate.holds, Predicate.evaluate?, read]

/-- Only a condition that can be read can fail. -/
theorem notes_of_unreadable (unreadable : branch.isReadable = false) :
    (branch.guard.map (Guard.notes context)).getD [] = [] := by
  rcases guard_of_unreadable unreadable with none | ⟨predicate, found, read⟩
  · simp [none]
  · simp [found, Guard.notes, Predicate.failureNotes, Predicate.fails, Predicate.evaluate?, read]

end Branch

/-! ### The two orders -/

namespace Rule

variable (context : Table String) {branches others : List Branch}

/-- Only branches with a readable guard can be chosen by it. -/
theorem findM?_answer (branches : List Branch) :
    branches.findM? (Branch.answer context) =
      (branches.filter Branch.isReadable).findM? (Branch.answer context) := by
  induction branches with
  | nil => rfl
  | cons branch rest ih =>
    cases readable : branch.isReadable with
    | true => rw [List.filter_cons_of_pos readable, List.findM?, List.findM?, ih]
    | false =>
      rw [List.filter_cons_of_neg (by simp [readable]), ← ih, List.findM?,
        Branch.answer_of_unreadable readable]
      rfl

theorem find?_isDefault (branches : List Branch) :
    branches.find? Branch.isDefault = (branches.filter Branch.isDefault).head? :=
  (List.head?_filter ..).symm

/-- Branches without a readable guard are passed over without a note. -/
theorem guardNotes_filter (branches : List Branch) :
    Pick.guardNotes context branches =
      Pick.guardNotes context (branches.filter Branch.isReadable) := by
  induction branches with
  | nil => rfl
  | cons branch rest ih =>
    cases readable : branch.isReadable with
    | true => rw [List.filter_cons_of_pos readable, Pick.guardNotes, Pick.guardNotes, ih]
    | false =>
      rw [List.filter_cons_of_neg (by simp [readable]), ← ih, Pick.guardNotes,
        Branch.notes_of_unreadable readable, Branch.answer_of_unreadable readable]
      rfl

/-- The same default branches in one order and the same branches with a readable guard in one order
give the same. -/
theorem pick_eq_of_orders {ρ ω : Type} [Draws ρ] (context : Table String)
    (defaults : branches.filter Branch.isDefault = others.filter Branch.isDefault)
    (readable : branches.filter Branch.isReadable = others.filter Branch.isReadable) :
    ((conditional branches : Rule ω).pick context : Pick ρ ω String) =
      (conditional others : Rule ω).pick context := by
  have chosen : chosen context branches = chosen context others := by
    simp only [Rule.chosen, fallback, findM?_answer _ branches, findM?_answer _ others,
      find?_isDefault, defaults, readable]
  rw [pick, pick, chosen, guardNotes_filter _ branches, guardNotes_filter _ others, readable]

end Rule

end TextGrammar
