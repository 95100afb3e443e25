import Mathlib
import TextGrammar.Proofs.Condition.Evaluation
import TextGrammar.Proofs.Number.Monotone
import TextGrammar.Proofs.Number.Order

/-!
Equality and order of numbers in conditions. Equality is that of the numbers, order is that of the
floating-point numbers nearest to them. Main statement: the two cohere, so that exactly one of less,
equal and greater holds, if and only if no rounding is infinite and rounding does not merge
different numbers; where they do not cohere, none of the three holds.
-/

namespace TextGrammar

namespace Number

/-- The number is an integer or a finite floating-point number, and this is its value. -/
inductive HasValue : Number → ℚ → Prop where
  | int (value : Int) : HasValue (int value) value
  | real {number : Binary64} {value : ℚ} (finite : number.value? = some value)
      (exact : Binary64.IsValue value) : HasValue (real number) value

variable {m n : Number} {p q : ℚ}

theorem HasValue.place?_eq (is : m.HasValue p) : m.place? = some ((p : WithTop ℚ) : Line) := by
  cases is with
  | int value => rfl
  | real finite exact =>
    obtain ⟨_, _, _, rfl, rfl⟩ := Binary64.exists_finite finite
    rfl

/-- Finite numbers compare as their values do. -/
theorem HasValue.compare?_eq (left : m.HasValue p) (right : n.HasValue q) :
    compare? m n = some (cmp p q) := by
  rw [Number.compare?_eq, left.place?_eq, right.place?_eq]
  exact congrArg some (cmp_place p q)

/-- The conversion rounds the value, unless the nearest number is infinite. -/
theorem HasValue.toBinary64_eq (is : m.HasValue p) :
    (∃ x number, Binary64.nearest? p = some x ∧ m.toBinary64 = .ok number ∧
      number.value? = some x) ∨
    Binary64.nearest? p = none ∧ m.toBinary64 = .error .tooLarge := by
  cases is with
  | real finite exact =>
    exact .inl ⟨_, _, Binary64.nearest?_of_isValue exact, rfl, finite⟩
  | int value =>
    have rounded : Binary64.ofRat value = Binary64.ofQuotient (value < 0) value.natAbs 1 := rfl
    rw [Binary64.nearest?, rounded, toBinary64, Binary64.ofInt?]
    by_cases infinite : Binary64.ofQuotient (value < 0) value.natAbs 1 = .infinity (value < 0)
    · rw [infinite]
      exact .inr ⟨rfl, rfl⟩
    · obtain ⟨_, _, finite⟩ := Binary64.ofQuotient_finite_of_ne infinite
      rw [finite]
      exact .inl ⟨_, _, rfl, rfl, rfl⟩

end Number

theorem Binary64.compare?_of_value? {x y : Binary64} {p q : ℚ} (left : x.value? = some p)
    (right : y.value? = some q) : compare? x y = some (cmp p q) := by
  obtain ⟨_, _, _, rfl, rfl⟩ := exists_finite left
  obtain ⟨_, _, _, rfl, rfl⟩ := exists_finite right
  rw [compare?, Number.compareRat_eq_cmp]

namespace Condition

variable {m n : Number} {p q : ℚ}

/-! ### Comparisons of numbers -/

theorem holds_equal (left : m.HasValue p) (right : n.HasValue q) :
    Operator.equal.holds (.number m) (.number n) = .ok (decide (p = q)) := by
  have same : looseEqual (.number m) (.number n) = decide (Number.compare? m n = some .eq) := rfl
  rw [Operator.holds, same, left.compare?_eq right]
  simp [cmp_eq_eq_iff]

/-- Order is that of the nearest floating-point numbers, if none of them is infinite. -/
theorem order?_eq (left : m.HasValue p) (right : n.HasValue q) :
    order? (.number m) (.number n) = match Binary64.nearest? p, Binary64.nearest? q with
      | some x, some y => .ok (some (cmp x y))
      | _, _ => .error .tooLarge := by
  have converts : order? (.number m) (.number n) = (do
      let x ← m.toBinary64
      let y ← n.toBinary64
      return Binary64.compare? x y) := rfl
  rw [converts]
  rcases left.toBinary64_eq with ⟨x, number, near, converted, valued⟩ | ⟨infinite, failed⟩
  · rcases right.toBinary64_eq with ⟨y, number', near', converted', valued'⟩ | ⟨infinite, failed⟩
    · rw [near, near', converted, converted']
      exact congrArg Except.ok (Binary64.compare?_of_value? valued valued')
    · rw [near, infinite, converted, failed]
      rfl
  · rw [infinite, failed]
    rfl

theorem holds_of_order? {a b : Value} {order : Ordering} (is : order? a b = .ok (some order)) :
    Operator.less.holds a b = .ok (decide (order = .lt)) ∧
      Operator.atMost.holds a b = .ok (decide (order ≠ .gt)) ∧
      Operator.greater.holds a b = .ok (decide (order = .gt)) ∧
      Operator.atLeast.holds a b = .ok (decide (order ≠ .lt)) := by
  simp only [Operator.holds, is]
  cases order <;> decide

/-! ### Comparisons in conditions -/

/-- A comparison of two conditions holds in a context. -/
def Holds (context : Value) (operator : Operator) (left right : Tree) : Prop :=
  (Tree.compare operator left right).evaluate context = .ok (.bool true)

/-- Exactly one of less, equal and greater holds, and the other two operators combine them. -/
structure Coherent (context : Value) (left right : Tree) : Prop where
  one : ∃! operator, operator ∈ [.less, .equal, .greater] ∧ Holds context operator left right
  atMost : Holds context .atMost left right ↔
    Holds context .less left right ∨ Holds context .equal left right
  atLeast : Holds context .atLeast left right ↔
    Holds context .greater left right ∨ Holds context .equal left right

section

variable {context : Value} {left right : Tree}

/-- Operators that read one linear order cohere. -/
theorem coherent_of_linear {x y : ℚ} (less : Holds context .less left right ↔ x < y)
    (equal : Holds context .equal left right ↔ x = y)
    (greater : Holds context .greater left right ↔ y < x)
    (atMost : Holds context .atMost left right ↔ x ≤ y)
    (atLeast : Holds context .atLeast left right ↔ y ≤ x) : Coherent context left right where
  one := by
    have others (operator : Operator) (present : operator ∈ [.less, .equal, .greater])
        (holds : Holds context operator left right) :
        operator = .less ∧ x < y ∨ operator = .equal ∧ x = y ∨ operator = .greater ∧ y < x := by
      simp only [List.mem_cons, List.not_mem_nil, or_false] at present
      rcases present with rfl | rfl | rfl
      · exact .inl ⟨rfl, less.mp holds⟩
      · exact .inr (.inl ⟨rfl, equal.mp holds⟩)
      · exact .inr (.inr ⟨rfl, greater.mp holds⟩)
    rcases lt_trichotomy x y with below | same | above
    · refine ⟨.less, ⟨by decide, less.mpr below⟩, fun operator ⟨present, holds⟩ => ?_⟩
      rcases others operator present holds with ⟨is, -⟩ | ⟨-, same⟩ | ⟨-, above⟩
      · exact is
      · exact absurd same below.ne
      · exact absurd above below.not_gt
    · refine ⟨.equal, ⟨by decide, equal.mpr same⟩, fun operator ⟨present, holds⟩ => ?_⟩
      rcases others operator present holds with ⟨-, below⟩ | ⟨is, -⟩ | ⟨-, above⟩
      · exact absurd same below.ne
      · exact is
      · exact absurd same above.ne'
    · refine ⟨.greater, ⟨by decide, greater.mpr above⟩, fun operator ⟨present, holds⟩ => ?_⟩
      rcases others operator present holds with ⟨-, below⟩ | ⟨-, same⟩ | ⟨is, -⟩
      · exact absurd above below.not_gt
      · exact absurd same above.ne'
      · exact is
  atMost := by rw [atMost, less, equal, le_iff_lt_or_eq]
  atLeast := by rw [atLeast, greater, equal, le_iff_lt_or_eq, eq_comm]

variable (first : left.evaluate context = .ok (.number m))
  (second : right.evaluate context = .ok (.number n))

include first second

theorem evaluate_compare (operator : Operator) :
    (Tree.compare operator left right).evaluate context =
      (operator.holds (.number m) (.number n)).map .bool := by
  rw [Tree.evaluate, first, second]
  show (do return Value.bool (← operator.holds (.number m) (.number n))) = _
  cases operator.holds (.number m) (.number n) <;> rfl

theorem holds_iff_of_eq {operator : Operator} {condition : Prop} [Decidable condition]
    (is : operator.holds (.number m) (.number n) = .ok (decide condition)) :
    Holds context operator left right ↔ condition := by
  rw [Holds, evaluate_compare first second, is]
  simp [Except.map]

variable (leftIs : m.HasValue p) (rightIs : n.HasValue q)

include leftIs rightIs

theorem holds_equal_iff : Holds context .equal left right ↔ p = q :=
  holds_iff_of_eq first second (holds_equal leftIs rightIs)

theorem evaluate_of_infinite {operator : Operator} (orders : operator.orders)
    (infinite : Binary64.nearest? p = none ∨ Binary64.nearest? q = none) :
    (Tree.compare operator left right).evaluate context = .error .tooLarge := by
  have failed : order? (.number m) (.number n) = .error .tooLarge := by
    rw [order?_eq leftIs rightIs]
    rcases infinite with infinite | infinite <;> rw [infinite]
    cases Binary64.nearest? p <;> rfl
  have fails := Operator.holds_eq_error_iff.mpr
    ⟨orders, rfl, (order?_eq_error_iff.mp failed).2⟩
  rw [evaluate_compare first second, fails]
  rfl

/-- Order is that of the nearest floating-point numbers. -/
theorem holds_order_iff {x y : ℚ} (near : Binary64.nearest? p = some x)
    (near' : Binary64.nearest? q = some y) :
    (Holds context .less left right ↔ x < y) ∧ (Holds context .atMost left right ↔ x ≤ y) ∧
      (Holds context .greater left right ↔ y < x) ∧
      (Holds context .atLeast left right ↔ y ≤ x) := by
  have is : order? (.number m) (.number n) = .ok (some (cmp x y)) := by
    rw [order?_eq leftIs rightIs, near, near']
  obtain ⟨less, atMost, greater, atLeast⟩ := holds_of_order? is
  rw [holds_iff_of_eq first second less, holds_iff_of_eq first second atMost,
    holds_iff_of_eq first second greater, holds_iff_of_eq first second atLeast]
  simp only [ne_eq, cmp_eq_lt_iff, cmp_eq_gt_iff, not_lt, and_self]

theorem exists_nearest_of_holds {operator : Operator} (orders : operator.orders)
    (holds : Holds context operator left right) :
    ∃ x y, Binary64.nearest? p = some x ∧ Binary64.nearest? q = some y := by
  by_contra infinite
  have missing : Binary64.nearest? p = none ∨ Binary64.nearest? q = none := by
    cases near : Binary64.nearest? p with
    | none => exact .inl rfl
    | some x =>
      refine .inr (Option.eq_none_iff_forall_ne_some.mpr fun y near' => ?_)
      exact infinite ⟨x, y, near, near'⟩
  cases (evaluate_of_infinite first second leftIs rightIs orders missing).symm.trans holds

theorem lt_of_holds_less (holds : Holds context .less left right) : p < q := by
  obtain ⟨x, y, near, near'⟩ := exists_nearest_of_holds first second leftIs rightIs rfl holds
  have below := (holds_order_iff first second leftIs rightIs near near').1.mp holds
  exact lt_of_not_ge fun above => below.not_ge (Binary64.nearest?_mono near' near above)

theorem lt_of_holds_greater (holds : Holds context .greater left right) : q < p := by
  obtain ⟨x, y, near, near'⟩ := exists_nearest_of_holds first second leftIs rightIs rfl holds
  have above := (holds_order_iff first second leftIs rightIs near near').2.2.1.mp holds
  exact lt_of_not_ge fun below => above.not_ge (Binary64.nearest?_mono near near' below)

theorem coherent_iff : Coherent context left right ↔
    ∃ x y, Binary64.nearest? p = some x ∧ Binary64.nearest? q = some y ∧ (x = y → p = q) := by
  have equal : Holds context .equal left right ↔ p = q :=
    holds_equal_iff first second leftIs rightIs
  constructor
  · intro coherent
    obtain ⟨operator, ⟨present, holds⟩, -⟩ := coherent.one
    simp only [List.mem_cons, List.not_mem_nil, or_false] at present
    -- some operator of order holds, for an equality is less or equal as well
    obtain ⟨x, y, near, near'⟩ :
        ∃ x y, Binary64.nearest? p = some x ∧ Binary64.nearest? q = some y := by
      rcases present with rfl | rfl | rfl
      · exact exists_nearest_of_holds first second leftIs rightIs rfl holds
      · exact exists_nearest_of_holds first second leftIs rightIs rfl
          (coherent.atMost.mpr (.inr holds))
      · exact exists_nearest_of_holds first second leftIs rightIs rfl holds
    obtain ⟨less, -, greater, -⟩ := holds_order_iff first second leftIs rightIs near near'
    refine ⟨x, y, near, near', fun merged => ?_⟩
    rcases present with rfl | rfl | rfl
    · exact absurd merged (less.mp holds).ne
    · exact equal.mp holds
    · exact absurd merged (greater.mp holds).ne'
  · rintro ⟨x, y, near, near', apart⟩
    obtain ⟨less, atMost, greater, atLeast⟩ :=
      holds_order_iff first second leftIs rightIs near near'
    have same : p = q ↔ x = y := by
      refine ⟨?_, apart⟩
      rintro rfl
      exact Option.some.inj (near.symm.trans near')
    exact coherent_of_linear less (equal.trans same) greater atMost atLeast

/-- Equality of numbers is exact; order is that of the nearest floating-point numbers, and fails if
one of these is infinite. So a number that is less than another one in this order is so in fact, but
equality and order cohere exactly if both nearest numbers are finite and not merged, as they are if
both numbers are values of floating-point numbers. -/
theorem numbers_cohere_iff :
    (Holds context .equal left right ↔ p = q) ∧
    (∀ x y, Binary64.nearest? p = some x → Binary64.nearest? q = some y →
      (Holds context .less left right ↔ x < y) ∧ (Holds context .atMost left right ↔ x ≤ y) ∧
        (Holds context .greater left right ↔ y < x) ∧
        (Holds context .atLeast left right ↔ y ≤ x)) ∧
    (Binary64.nearest? p = none ∨ Binary64.nearest? q = none →
      ∀ operator : Operator, operator.orders →
        (Tree.compare operator left right).evaluate context = .error .tooLarge) ∧
    (Holds context .less left right → p < q) ∧ (Holds context .greater left right → q < p) ∧
    (Coherent context left right ↔ ∃ x y, Binary64.nearest? p = some x ∧
      Binary64.nearest? q = some y ∧ (x = y → p = q)) ∧
    (Binary64.IsValue p → Binary64.IsValue q → Coherent context left right) := by
  have coherent := coherent_iff first second leftIs rightIs
  refine ⟨holds_equal_iff first second leftIs rightIs,
    fun x y near near' => holds_order_iff first second leftIs rightIs near near',
    fun infinite operator orders =>
      evaluate_of_infinite first second leftIs rightIs orders infinite,
    lt_of_holds_less first second leftIs rightIs, lt_of_holds_greater first second leftIs rightIs,
    coherent, fun exact exact' => coherent.mpr ?_⟩
  exact ⟨p, q, Binary64.nearest?_of_isValue exact, Binary64.nearest?_of_isValue exact', id⟩

end

/-- A literal and a floating-point number of the context. -/
theorem three_coheres_with_two_and_a_half :
    let context : Value := .map [(.str "level", .real (.finite false 5 (-1)))]
    Tree.evaluate context (.literal (.number (.int 3))) = .ok (.number (.int 3)) ∧
    Tree.evaluate context (.lookup "level") = .ok (.number (.real (.finite false 5 (-1)))) ∧
    (Number.int 3).HasValue 3 ∧ (Number.real (.finite false 5 (-1))).HasValue (5 / 2) ∧
    Coherent context (.literal (.number (.int 3))) (.lookup "level") := by
  intro context
  have exact : Binary64.IsValue 3 := .of_eq_div 3 0 (by norm_num)
  have exact' : Binary64.IsValue (5 / 2) := .of_eq_div 5 1 (by norm_num)
  have finite : (Binary64.finite false 5 (-1)).value? = some (5 / 2) := by
    rw [Binary64.value?, Binary64.toRat_finite]
    norm_num
  have three : (Number.int 3).HasValue 3 := .int 3
  have half : (Number.real (.finite false 5 (-1))).HasValue (5 / 2) := .real finite exact'
  have first : Tree.evaluate context (.literal (.number (.int 3))) = .ok (.number (.int 3)) := rfl
  have second : Tree.evaluate context (.lookup "level") =
      .ok (.number (.real (.finite false 5 (-1)))) := rfl
  obtain ⟨-, -, -, -, -, -, cohere⟩ := numbers_cohere_iff first second three half
  exact ⟨first, second, three, half, cohere exact exact'⟩

/-- Of the least integer that no floating-point number equals and the integer before it, neither is
less, and they are not equal. -/
theorem neighbours_do_not_cohere :
    (∀ operator ∈ [Operator.less, .equal, .greater],
      (Tree.compare operator (.literal (.number (.int 9007199254740992)))
        (.literal (.number (.int 9007199254740993)))).evaluate (.map []) = .ok (.bool false)) ∧
    ¬ ∀ (m n : Number) (p q : ℚ) (context : Value) (left right : Tree), m.HasValue p →
      n.HasValue q → left.evaluate context = .ok (.number m) →
      right.evaluate context = .ok (.number n) → Coherent context left right := by
  have merged : ∀ operator ∈ [Operator.less, .equal, .greater],
      operator.holds (.int 9007199254740992) (.int 9007199254740993) = .ok false := by
    decide +kernel
  have never : ∀ operator ∈ [Operator.less, .equal, .greater],
      (Tree.compare operator (.literal (.number (.int 9007199254740992)))
        (.literal (.number (.int 9007199254740993)))).evaluate (.map []) = .ok (.bool false) := by
    intro operator present
    rw [evaluate_compare (m := .int 9007199254740992) (n := .int 9007199254740993) rfl rfl,
      merged operator present]
    rfl
  refine ⟨never, fun always => ?_⟩
  obtain ⟨operator, ⟨present, holds⟩, -⟩ := (always _ _ _ _ (.map [])
    (.literal (.number (.int 9007199254740992))) (.literal (.number (.int 9007199254740993)))
    (.int 9007199254740992) (.int 9007199254740993) rfl rfl).one
  cases (never operator present).symm.trans holds

end Condition

end TextGrammar
