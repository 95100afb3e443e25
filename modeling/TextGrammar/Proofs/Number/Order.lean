import Mathlib
import TextGrammar.Proofs.Number.Exact

/-!
The order of numbers. Main statement: numbers compare as their places on the line of the rationals
with two ends do, so nothing but the place of a number counts in a comparison.
-/

namespace TextGrammar.Number

/-- The rationals with a least and a greatest place. -/
abbrev Line := WithBot (WithTop ℚ)

/-- The place of a number, if it is one. -/
def place? : Number → Option Line
  | int value => some ((value : ℚ) : WithTop ℚ)
  | real .nan => none
  | real (.infinity negative) => some (if negative then ⊥ else ⊤)
  | real (.finite negative significand exponent) =>
    some ((Binary64.finite negative significand exponent).toRat : WithTop ℚ)

theorem compareRat_eq_cmp (x y : ℚ) : Binary64.compareRat x y = cmp x y := by
  rw [Binary64.compareRat, cmp, cmpUsing]
  rcases lt_trichotomy x y with less | rfl | more
  · simp [less]
  · simp
  · simp [more, more.not_gt, more.ne']

theorem compare_int_eq_cmp (x y : ℤ) : compare x y = cmp (x : ℚ) (y : ℚ) := by
  rw [cmp, cmpUsing]
  rcases lt_trichotomy x y with less | rfl | more
  · simp [compare_lt_iff_lt.mpr less, less]
  · simp
  · simp [compare_gt_iff_gt.mpr more, more, more.not_gt]

/-! ### Comparisons on the line -/

theorem cmp_place (x y : ℚ) : cmp ((x : WithTop ℚ) : Line) ((y : WithTop ℚ) : Line) = cmp x y := by
  simp [cmp, cmpUsing]

theorem bot_lt_place (x : ℚ) : (⊥ : Line) < (x : WithTop ℚ) := WithBot.bot_lt_coe _

theorem place_lt_top (x : ℚ) : ((x : WithTop ℚ) : Line) < ⊤ :=
  WithBot.coe_lt_coe.mpr (WithTop.coe_lt_top x)

/-! ### Comparisons of numbers -/

/-- Numbers compare as their places do. -/
theorem compare?_eq (m n : Number) :
    compare? m n = m.place?.bind fun x => n.place?.map fun y => cmp x y := by
  have fromBelow (x : ℚ) := (cmp_eq_lt_iff _ _).mpr (bot_lt_place x)
  have toBelow (x : ℚ) := (cmp_eq_gt_iff _ _).mpr (bot_lt_place x)
  have toAbove (x : ℚ) := (cmp_eq_lt_iff _ _).mpr (place_lt_top x)
  have fromAbove (x : ℚ) := (cmp_eq_gt_iff _ _).mpr (place_lt_top x)
  have upward : cmp (⊥ : Line) ⊤ = .lt := (cmp_eq_lt_iff _ _).mpr bot_lt_top
  have downward : cmp (⊤ : Line) ⊥ = .gt := (cmp_eq_gt_iff _ _).mpr bot_lt_top
  rcases m with x | ⟨s, d, e⟩ | (_ | _) | _ <;> rcases n with y | ⟨t, f, g⟩ | (_ | _) | _ <;>
    simp [compare?, Binary64.compare?, place?, compare_int_eq_cmp, compareRat_eq_cmp, cmp_place,
      fromBelow, toBelow, toAbove, fromAbove, upward, downward] <;> rfl

/-- Numbers compare as equal exactly if they have the same place. -/
theorem compare?_eq_eq_iff {m n : Number} :
    compare? m n = some .eq ↔ ∃ place, m.place? = some place ∧ n.place? = some place := by
  rw [compare?_eq]
  cases m.place? with
  | none => simp
  | some x =>
    cases n.place? with
    | none => simp
    | some y =>
      simp [cmp_eq_eq_iff, @eq_comm _ x]

/-- Nothing but the places counts. -/
theorem compare?_congr {m m' n n' : Number} (left : m.place? = m'.place?)
    (right : n.place? = n'.place?) : compare? m n = compare? m' n' := by
  rw [compare?_eq, compare?_eq, left, right]

/-! ### No number, and zero -/

theorem isNaN_iff {number : Number} : number.isNaN = true ↔ number.place? = none := by
  rcases number with x | ⟨s, d, e⟩ | s | _ <;> simp [isNaN, place?]

theorem isZero_iff {number : Number} :
    number.isZero = true ↔ number.place? = some (((0 : ℚ) : WithTop ℚ) : Line) := by
  rcases number with x | ⟨s, d, e⟩ | (_ | _) | _
  · simp [isZero, place?]
  · have power : (2 : ℚ) ^ e ≠ 0 := zpow_ne_zero e two_ne_zero
    have exact : (Binary64.finite s d e).toRat = 0 ↔ d = 0 := by
      rw [Binary64.toRat_finite]
      cases s <;> simp [power]
    simp [isZero, Binary64.isZero, place?, exact]
  · exact iff_of_false Bool.false_ne_true fun same => (place_lt_top 0).ne' (Option.some.inj same)
  · exact iff_of_false Bool.false_ne_true fun same => (bot_lt_place 0).ne (Option.some.inj same)
  · exact iff_of_false Bool.false_ne_true (Option.some_ne_none _).symm

end TextGrammar.Number
