import TextGrammar.Condition.Evaluation
import TextGrammar.Proofs.Value.Equality

/-!
What the value of a condition depends on. Main statement: in contexts that give related values for
the keys that a condition looks up, it has related values or fails in the same way, for every
relation that comparisons and truth do not tell apart; equality between values of one kind is such a
relation.
-/

namespace TextGrammar

/-- The same value, or an equal one of the same kind. The order of the two does not matter for maps
without repeated keys. -/
def Value.Alike (x y : Value) : Prop :=
  x = y ∨ x.kindName = y.kindName ∧ x.equal y = true ∧ y.equal x = true

namespace Condition

/-- Comparisons and truth do not tell related values apart. -/
structure Indistinct (related : Value → Value → Prop) : Prop where
  refl (x : Value) : related x x
  isTrue {x y : Value} : related x y → isTrue x = isTrue y
  holds (operator : Operator) {x x' y y' : Value} : related x x' → related y y' →
    operator.holds x y = operator.holds x' y'

theorem indistinct_eq : Indistinct Eq where
  refl _ := rfl
  isTrue same := same ▸ rfl
  holds _ _ _ _ _ left right := left ▸ right ▸ rfl

/-! ### Comparisons with floating-point numbers -/

theorem looseEqual_real_left (r : Binary64) (y : Value) :
    looseEqual (.real r) y =
      (!y.isNull && (numeric? y).any fun n => Number.compare? (.real r) n = some Ordering.eq) := by
  have itself : numeric? (.real r) = some (.real r) := rfl
  rcases y with (_ | _ | _ | text | _ | _) | _ | _
  case scalar.str =>
    cases read : numeric? (.str text) <;> simp [looseEqual, itself, read, Value.isNull]
  all_goals rfl

theorem looseEqual_real_right (r : Binary64) (y : Value) :
    looseEqual y (.real r) =
      (!y.isNull && (numeric? y).any fun n => Number.compare? n (.real r) = some Ordering.eq) := by
  have itself : numeric? (.real r) = some (.real r) := rfl
  rcases y with (_ | _ | _ | text | _ | _) | _ | _
  case scalar.str =>
    cases read : numeric? (.str text) <;> simp [looseEqual, itself, read, Value.isNull]
  all_goals rfl

/-! ### Equal values of one kind -/

section

variable {x x' : Value}

/-- Scalars of one kind that are the same are identical, or floating-point numbers or stamps at one
place. -/
theorem same_cases {x y : Scalar} (kind : (Value.scalar x).kindName = (Value.scalar y).kindName)
    (same : x.same y = true) :
    x = y ∨
      (∃ r s, x = .number (.real r) ∧ y = .number (.real s) ∧
        (Number.real r).place? = (Number.real s).place?) ∨
      ∃ s t, x = .stamp s ∧ y = .stamp t := by
  rcases Scalar.same_iff.mp same with ⟨rfl, -⟩ | ⟨place, here, there⟩
  · exact .inl rfl
  · cases place with
    | inr place =>
      obtain ⟨s, rfl⟩ := Scalar.exists_stamp_of_place? here
      obtain ⟨t, rfl⟩ := Scalar.exists_stamp_of_place? there
      exact .inr (.inr ⟨s, t, rfl, rfl⟩)
    | inl line =>
      obtain ⟨m, left, atLeft⟩ := Scalar.exists_number_of_place? here
      obtain ⟨n, right, atRight⟩ := Scalar.exists_number_of_place? there
      have places : m.place? = n.place? := atLeft.trans atRight.symm
      rcases x with _ | x | (x | r) | x | x | x <;> cases left <;>
        rcases y with _ | y | (y | s) | y | y | y <;> cases right <;>
        simp [Value.kindName] at kind
      case inr.inl.bool.refl.bool.refl =>
        have numbers : x.toNat = y.toNat := by simpa [Number.place?] using places
        have equal : x = y := by cases x <;> cases y <;> simp_all
        exact .inl (equal ▸ rfl)
      case inr.inl.number.int.refl.number.int.refl =>
        have equal : x = y := by simpa [Number.place?] using places
        exact .inl (equal ▸ rfl)
      case inr.inl.number.real.refl.number.real.refl => exact .inr (.inl ⟨r, s, rfl, rfl, places⟩)

/-- Alike are identical values, floating-point numbers at one place, stamps, lists, and maps. -/
theorem alike_cases (alike : x.Alike x') :
    x = x' ∨
      (∃ r s, x = .real r ∧ x' = .real s ∧ (Number.real r).place? = (Number.real s).place?) ∨
      (∃ s t, x = .stamp s ∧ x' = .stamp t) ∨
      (∃ xs ys, x = .list xs ∧ x' = .list ys) ∨ ∃ xs ys, x = .map xs ∧ x' = .map ys := by
  rcases alike with same | ⟨kind, equal, -⟩
  · exact .inl same
  · cases x with
    | list xs =>
      cases x' with
      | list ys => exact .inr (.inr (.inr (.inl ⟨xs, ys, rfl, rfl⟩)))
      | scalar | map => simp [Value.equal] at equal
    | map xs =>
      cases x' with
      | map ys => exact .inr (.inr (.inr (.inr ⟨xs, ys, rfl, rfl⟩)))
      | scalar | list => simp [Value.equal] at equal
    | scalar x =>
      cases x' with
      | list | map => simp [Value.equal] at equal
      | scalar y =>
        simp only [Value.equal] at equal
        rcases same_cases kind equal with rfl | ⟨r, s, rfl, rfl, places⟩ | ⟨s, t, rfl, rfl⟩
        · exact .inl rfl
        · exact .inr (.inl ⟨r, s, rfl, rfl, places⟩)
        · exact .inr (.inr (.inl ⟨s, t, rfl, rfl⟩))

theorem equal_congr_left (alike : x.Alike x') (y : Value) : x.equal y = x'.equal y := by
  rcases alike with rfl | ⟨-, forth, back⟩
  · rfl
  · exact Bool.eq_iff_iff.mpr ⟨Value.equal_trans back, Value.equal_trans forth⟩

theorem equal_congr_right (alike : x.Alike x') (y : Value) : y.equal x = y.equal x' := by
  rcases alike with rfl | ⟨-, forth, back⟩
  · rfl
  · exact Bool.eq_iff_iff.mpr
      ⟨fun first => Value.equal_trans first forth, fun first => Value.equal_trans first back⟩

theorem isTrue_congr (alike : x.Alike x') : isTrue x = isTrue x' := by
  rcases alike_cases alike with
    rfl | ⟨r, s, rfl, rfl, same⟩ | ⟨s, t, rfl, rfl⟩ | ⟨xs, ys, rfl, rfl⟩ | ⟨xs, ys, rfl, rfl⟩
  · rfl
  · have zero : (Number.real r).isZero = (Number.real s).isZero := by
      rw [Bool.eq_iff_iff, Number.isZero_iff, Number.isZero_iff, same]
    have none : (Number.real r).isNaN = (Number.real s).isNaN := by
      rw [Bool.eq_iff_iff, Number.isNaN_iff, Number.isNaN_iff, same]
    rw [isTrue, isTrue, zero, none]
  · rfl
  · rcases alike with same | ⟨-, equal, -⟩
    · rw [same]
    · cases xs <;> cases ys <;> simp_all [isTrue, Value.truthy, Value.equal, Value.equalItems]
  · rcases alike with same | ⟨-, equal, -⟩
    · rw [same]
    · cases xs <;> cases ys <;> simp_all [isTrue, Value.truthy, Value.equal]

theorem strictEqual_congr_left (alike : x.Alike x') (y : Value) :
    strictEqual x y = strictEqual x' y := by
  have equal := equal_congr_left alike y
  rcases alike_cases alike with
    rfl | ⟨r, s, rfl, rfl, same⟩ | ⟨s, t, rfl, rfl⟩ | ⟨xs, ys, rfl, rfl⟩ | ⟨xs, ys, rfl, rfl⟩
  · rfl
  · rcases y with (_ | _ | n | _ | _ | _) | _ | _ <;> try rfl
    simp only [strictEqual, Number.compare?_congr same rfl]
  · rcases y with (_ | _ | _ | _ | _ | _) | _ | _ <;> first | rfl | exact equal
  · cases y with
    | list zs => exact equal
    | scalar | map => rfl
  · cases y with
    | map zs => exact equal
    | scalar | list => rfl

theorem strictEqual_congr_right (alike : x.Alike x') (y : Value) :
    strictEqual y x = strictEqual y x' := by
  have equal := equal_congr_right alike y
  rcases alike_cases alike with
    rfl | ⟨r, s, rfl, rfl, same⟩ | ⟨s, t, rfl, rfl⟩ | ⟨xs, ys, rfl, rfl⟩ | ⟨xs, ys, rfl, rfl⟩
  · rfl
  · rcases y with (_ | _ | n | _ | _ | _) | _ | _ <;> try rfl
    simp only [strictEqual, Number.compare?_congr rfl same]
  · rcases y with (_ | _ | _ | _ | _ | _) | _ | _ <;> first | rfl | exact equal
  · cases y with
    | list zs => exact equal
    | scalar y => cases y <;> rfl
    | map => rfl
  · cases y with
    | map zs => exact equal
    | scalar y => cases y <;> rfl
    | list => rfl

theorem looseEqual_congr_left (alike : x.Alike x') (y : Value) :
    looseEqual x y = looseEqual x' y := by
  rcases alike_cases alike with
    rfl | ⟨r, s, rfl, rfl, same⟩ | ⟨s, t, rfl, rfl⟩ | ⟨xs, ys, rfl, rfl⟩ | ⟨xs, ys, rfl, rfl⟩
  · rfl
  · have compared (n : Number) := Number.compare?_congr same (rfl : n.place? = n.place?)
    rw [looseEqual_real_left, looseEqual_real_left]
    simp only [compared]
  · rcases y with (_ | _ | _ | _ | _ | _) | _ | _ <;> rfl
  · rcases y with (_ | _ | _ | _ | _ | _) | _ | _ <;> simp [looseEqual, numeric?, Value.number?]
  · rcases y with (_ | _ | _ | _ | _ | _) | _ | _ <;> simp [looseEqual, numeric?, Value.number?]

theorem looseEqual_congr_right (alike : x.Alike x') (y : Value) :
    looseEqual y x = looseEqual y x' := by
  rcases alike_cases alike with
    rfl | ⟨r, s, rfl, rfl, same⟩ | ⟨s, t, rfl, rfl⟩ | ⟨xs, ys, rfl, rfl⟩ | ⟨xs, ys, rfl, rfl⟩
  · rfl
  · have compared (n : Number) := Number.compare?_congr (rfl : n.place? = n.place?) same
    rw [looseEqual_real_right, looseEqual_real_right]
    simp only [compared]
  · rcases y with (_ | _ | _ | _ | _ | _) | _ | _ <;> rfl
  · rcases y with (_ | _ | _ | _ | _ | _) | _ | _ <;>
      simp [looseEqual, numeric?, Value.number?, Value.isNull]
  · rcases y with (_ | _ | _ | _ | _ | _) | _ | _ <;>
      simp [looseEqual, numeric?, Value.number?, Value.isNull]

theorem order?_congr_left (alike : x.Alike x') (y : Value) : order? x y = order? x' y := by
  rcases alike_cases alike with
    rfl | ⟨r, s, rfl, rfl, same⟩ | ⟨s, t, rfl, rfl⟩ | ⟨xs, ys, rfl, rfl⟩ | ⟨xs, ys, rfl, rfl⟩
  · rfl
  · have compared (n : Binary64) : Binary64.compare? r n = Binary64.compare? s n :=
      Number.compare?_congr same (rfl : (Number.real n).place? = _)
    show (do return Binary64.compare? r (← magnitude y)) =
      do return Binary64.compare? s (← magnitude y)
    simp only [compared]
  · rfl
  · rfl
  · rfl

theorem order?_congr_right (alike : x.Alike x') (y : Value) : order? y x = order? y x' := by
  rcases alike_cases alike with
    rfl | ⟨r, s, rfl, rfl, same⟩ | ⟨s, t, rfl, rfl⟩ | ⟨xs, ys, rfl, rfl⟩ | ⟨xs, ys, rfl, rfl⟩
  · rfl
  · have compared (n : Binary64) : Binary64.compare? n r = Binary64.compare? n s :=
      Number.compare?_congr (rfl : (Number.real n).place? = _) same
    have opened (t : Binary64) :
        order? y (.real t) = do return Binary64.compare? (← magnitude y) t := by
      rcases y with (_ | _ | _ | _ | _ | _) | _ | _ <;> rfl
    rw [opened, opened]
    simp only [compared]
  · rcases y with (_ | _ | _ | _ | _ | _) | _ | _ <;> rfl
  · rcases y with (_ | _ | _ | _ | _ | _) | _ | _ <;> rfl
  · rcases y with (_ | _ | _ | _ | _ | _) | _ | _ <;> rfl

end

/-- Equality between values of one kind makes no difference for comparisons and truth. -/
theorem indistinct_alike : Indistinct Value.Alike where
  refl _ := .inl rfl
  isTrue := isTrue_congr
  holds operator x x' y y' left right := by
    have strict : strictEqual x y = strictEqual x' y' :=
      (strictEqual_congr_left left y).trans (strictEqual_congr_right right x')
    have loose : looseEqual x y = looseEqual x' y' :=
      (looseEqual_congr_left left y).trans (looseEqual_congr_right right x')
    have order : order? x y = order? x' y' :=
      (order?_congr_left left y).trans (order?_congr_right right x')
    cases operator <;> simp only [Operator.holds, strict, loose, order]

/-! ### Conditions -/

/-- Both outcomes are the same fault, or they are related values. -/
def Matching (related : Value → Value → Prop) : Except Fault Value → Except Fault Value → Prop
  | .ok x, .ok y => related x y
  | .error reason, .error other => reason = other
  | _, _ => False

theorem matching_eq_iff {outcome outcome' : Except Fault Value} :
    Matching Eq outcome outcome' ↔ outcome = outcome' := by
  cases outcome <;> cases outcome' <;> simp [Matching]

section

variable {related : Value → Value → Prop} (indistinct : Indistinct related)
  {context context' : Value}

include indistinct

theorem Indistinct.matching_refl (outcome : Except Fault Value) :
    Matching related outcome outcome := by
  cases outcome with
  | ok x => exact indistinct.refl x
  | error reason => exact rfl

omit indistinct in
theorem Matching.bind_eq {β : Type} {outcome outcome' : Except Fault Value}
    (matching : Matching related outcome outcome') {next next' : Value → Except Fault β}
    (behind : ∀ x y, related x y → next x = next' y) : outcome >>= next = outcome' >>= next' := by
  cases outcome with
  | ok x =>
    cases outcome' with
    | ok y => exact behind x y matching
    | error => exact matching.elim
  | error reason =>
    cases outcome' with
    | ok => exact matching.elim
    | error other => exact congrArg Except.error matching

mutual

/-- If the keys that a condition looks up have related values, so has the condition. -/
theorem Indistinct.evaluate (tree : Tree)
    (lookups : ∀ key ∈ tree.lookups, Matching related (context.lookup key) (context'.lookup key)) :
    Matching related (tree.evaluate context) (tree.evaluate context') := by
  cases tree with
  | literal value => exact indistinct.matching_refl _
  | lookup key => exact lookups key List.mem_cons_self
  | compare operator left right =>
    obtain ⟨first, second⟩ := List.forall_mem_append.mp lookups
    have same : (Tree.compare operator left right).evaluate context =
        (Tree.compare operator left right).evaluate context' := by
      rw [Tree.evaluate, Tree.evaluate]
      refine (Indistinct.evaluate left first).bind_eq fun x x' alike => ?_
      refine (Indistinct.evaluate right second).bind_eq fun y y' alikeRight => ?_
      rw [indistinct.holds operator alike alikeRight]
    exact same ▸ indistinct.matching_refl _
  | all operands =>
    have same : (Tree.all operands).evaluate context = (Tree.all operands).evaluate context' := by
      rw [Tree.evaluate, Tree.evaluate, Indistinct.holdAll operands lookups]
    exact same ▸ indistinct.matching_refl _
  | any operands =>
    have same : (Tree.any operands).evaluate context = (Tree.any operands).evaluate context' := by
      rw [Tree.evaluate, Tree.evaluate, Indistinct.holdAny operands lookups]
    exact same ▸ indistinct.matching_refl _
  | not operand =>
    have same : (Tree.not operand).evaluate context = (Tree.not operand).evaluate context' := by
      rw [Tree.evaluate, Tree.evaluate]
      refine (Indistinct.evaluate operand lookups).bind_eq fun x y alike => ?_
      rw [indistinct.isTrue alike]
    exact same ▸ indistinct.matching_refl _

theorem Indistinct.holdAll (operands : List Tree)
    (lookups : ∀ key ∈ Tree.lookupsOfAll operands,
      Matching related (context.lookup key) (context'.lookup key)) :
    Tree.holdAll context operands = Tree.holdAll context' operands := by
  cases operands with
  | nil => rfl
  | cons operand rest =>
    obtain ⟨first, second⟩ := List.forall_mem_append.mp lookups
    rw [Tree.holdAll, Tree.holdAll]
    refine (Indistinct.evaluate operand first).bind_eq fun x y alike => ?_
    rw [indistinct.isTrue alike, Indistinct.holdAll rest second]

theorem Indistinct.holdAny (operands : List Tree)
    (lookups : ∀ key ∈ Tree.lookupsOfAll operands,
      Matching related (context.lookup key) (context'.lookup key)) :
    Tree.holdAny context operands = Tree.holdAny context' operands := by
  cases operands with
  | nil => rfl
  | cons operand rest =>
    obtain ⟨first, second⟩ := List.forall_mem_append.mp lookups
    rw [Tree.holdAny, Tree.holdAny]
    refine (Indistinct.evaluate operand first).bind_eq fun x y alike => ?_
    rw [indistinct.isTrue alike, Indistinct.holdAny rest second]

end

end

end Condition

end TextGrammar
