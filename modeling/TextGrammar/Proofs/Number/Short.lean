import TextGrammar.Number.Basic
import TextGrammar.Proofs.Number.Digits
import TextGrammar.Proofs.Number.Nearest

/-!
Integers that have a text. Main statements: an integer has a text exactly if it does not have too
many digits, what a numeral denotes does not, and neither does the integer part of a floating-point
number that is made of a quotient.
-/

namespace TextGrammar

namespace Numeral

/-- Integers of at most `maxDigits` digits. -/
def Short (value : Int) : Prop := value.natAbs < 10 ^ maxDigits

instance (value : Int) : Decidable (Short value) :=
  inferInstanceAs (Decidable (value.natAbs < 10 ^ maxDigits))

theorem ofInt?_eq (value : Int) :
    ofInt? value = if Short value then some (toString value) else none := by
  have digits : (toString value.natAbs).length = (Nat.toDigits 10 value.natAbs).length :=
    String.length_ofList
  have short : (Nat.toDigits 10 value.natAbs).length ≤ maxDigits ↔ Short value :=
    Nat.length_toDigits_le_iff (by decide) (by decide)
  rw [ofInt?, digits]
  exact if_congr short rfl rfl

theorem text_eq (value : Int) :
    text value = if Short value then .ok (toString value) else .error .notNumeral := by
  rw [text, ofInt?_eq]
  by_cases short : Short value
  · rw [if_pos short, if_pos short]
  · rw [if_neg short, if_neg short]

theorem text_eq_ok_iff {value : Int} {given : String} :
    text value = .ok given ↔ Short value ∧ given = toString value := by
  rw [text_eq]
  by_cases short : Short value
  · simp [short, eq_comm]
  · simp [short]

theorem text_of_short {value : Int} (short : Short value) : text value = .ok (toString value) := by
  rw [text_eq, if_pos short]

theorem short_natCast {value : Nat} : Short value ↔ value < 10 ^ maxDigits := by
  rw [Short, Int.natAbs_natCast]

theorem short_neg {value : Int} : Short (-value) ↔ Short value := by
  rw [Short, Int.natAbs_neg, Short]

theorem short_of_lt {value : Nat} (small : value < 10 ^ 3) : Short value :=
  short_natCast.mpr (small.trans_le (Nat.pow_le_pow_right (by decide) (by decide)))

/-! ### What numerals denote -/

theorem digitsValue_lt {digits : List Char} (all : ∀ c ∈ digits, c.isDigit = true) :
    digitsValue digits < 10 ^ digits.length := by
  have later (start : Nat) :
      digits.foldl (fun value digit => value * 10 + (digit.toNat - 48)) start <
        (start + 1) * 10 ^ digits.length := by
    induction digits generalizing start with
    | nil => simp
    | cons c rest ih =>
      have digit := all c List.mem_cons_self
      simp only [Char.isDigit, Bool.and_eq_true, decide_eq_true_eq] at digit
      have most : c.toNat ≤ 57 := digit.2
      have step := ih (fun c member => all c (List.mem_cons_of_mem _ member))
        (start * 10 + (c.toNat - 48))
      calc _ < (start * 10 + (c.toNat - 48) + 1) * 10 ^ rest.length := step
        _ ≤ (start + 1) * 10 * 10 ^ rest.length := Nat.mul_le_mul_right _ (by omega)
        _ = (start + 1) * 10 ^ (c :: rest).length := by rw [List.length_cons, pow_succ]; ring
  simpa [digitsValue] using later 0

/-- Few digits denote a short integer, with either sign. -/
theorem short_digits {digits : List Char} (all : ∀ c ∈ digits, c.isDigit = true)
    (few : digits.length ≤ maxDigits) (negative : Bool) :
    Short (if negative then -(digitsValue digits : Int) else digitsValue digits) := by
  have short : Short (digitsValue digits : Int) :=
    short_natCast.mpr ((digitsValue_lt all).trans_le (Nat.pow_le_pow_right (by decide) few))
  cases negative with
  | false => exact short
  | true => exact short_neg.mpr short

theorem short_of_integer? {text : List Char} {value : Int} (denotes : integer? text = some value) :
    Short value := by
  obtain ⟨plain, -, denotes⟩ := Option.bind_eq_some_iff.mp denotes
  generalize takeSign plain = signed at denotes
  obtain ⟨negative, magnitude⟩ := signed
  dsimp only at denotes
  split at denotes
  · cases denotes
  · rename_i digits
    cases denotes
    simp only [Bool.or_eq_true, Bool.not_eq_true', decide_eq_true_eq, not_or, Bool.not_eq_false,
      List.all_eq_true, not_lt] at digits
    exact short_digits digits.1.2 digits.2 _

end Numeral

namespace Number

open Binary64

/-- The integer part, if there is one, has a text. -/
def Short (number : Number) : Prop :=
  ∀ whole, number.truncate = .ok whole → Numeral.Short whole

theorem short_int {value : Int} : (int value).Short ↔ Numeral.Short value :=
  ⟨fun short => short value rfl, fun short _ same => Except.ok.inj same ▸ short⟩

theorem short_real_of_lt {number : Binary64} (small : |number.toRat| < 10 ^ Numeral.maxDigits) :
    (real number).Short := by
  intro whole same
  cases number with
  | nan | infinity => cases same
  | finite negative significand exponent =>
    cases same
    generalize (finite negative significand exponent).toRat = value at small
    have most : value.num.natAbs < 10 ^ Numeral.maxDigits * value.den := by
      have positive : (0 : ℚ) < value.den := by exact_mod_cast value.pos
      rw [← Rat.num_div_den value, abs_div, Nat.abs_cast, div_lt_iff₀ positive, ← Int.cast_abs,
        Int.abs_eq_natAbs] at small
      exact_mod_cast small
    rw [Numeral.Short, Int.natAbs_tdiv, Int.natAbs_natCast]
    exact Nat.div_lt_of_lt_mul (by rwa [Nat.mul_comm])

theorem abs_toRat_finite (negative : Bool) (significand : Nat) (exponent : Int) :
    |(finite negative significand exponent).toRat| = significand * 2 ^ exponent := by
  have nonneg : (0 : ℚ) ≤ significand * 2 ^ exponent := by positivity
  rw [toRat, pow2_eq_zpow]
  cases negative with
  | false => exact abs_of_nonneg nonneg
  | true => exact (abs_neg _).trans (abs_of_nonneg nonneg)

theorem rounded_le {num den : Nat} (nonzero : num ≠ 0) (positive : 0 < den) :
    (rounded num den).1 ≤ 2 ^ 53 := by
  have most := (lastPlace_spec nonzero positive).1
  have le : significandAt num den (lastPlace num den) ≤ 2 ^ 53 := by
    apply significandAt_le positive
    rw [zpow_add₀ two_ne_zero, mul_comm] at most
    exact_mod_cast most.le
  rw [rounded]
  split
  · exact Nat.pow_le_pow_right (by decide) (by decide)
  · exact le

/-- The nearest number to a quotient is infinite or below `2 ^ 1024`. -/
theorem short_ofQuotient (negative : Bool) (num : Nat) {den : Nat} (positive : 0 < den) :
    (real (ofQuotient negative num den)).Short := by
  have short_zero : (real (zero negative)).Short := by
    apply short_real_of_lt
    simp [zero, toRat]
  by_cases nonzero : num = 0
  · rw [ofQuotient, if_pos nonzero]
    exact short_zero
  · rw [ofQuotient_of_ne_zero nonzero]
    split
    · intro whole same
      cases same
    · rename_i place
      split
      · exact short_zero
      · apply short_real_of_lt
        have scale : (2 : ℚ) ^ (rounded num den).2 ≤ 2 ^ maxExponent :=
          zpow_le_zpow_right₀ one_le_two (not_lt.mp place)
        rw [abs_toRat_finite]
        calc ((rounded num den).1 : ℚ) * 2 ^ (rounded num den).2
            ≤ 2 ^ (53 : ℤ) * 2 ^ maxExponent := by
              gcongr
              exact_mod_cast rounded_le nonzero positive
          _ = 2 ^ ((53 : ℤ) + maxExponent) := (zpow_add₀ two_ne_zero _ _).symm
          _ = 2 ^ 1024 := zpow_natCast 2 1024
          _ ≤ 10 ^ 1024 := pow_le_pow_left₀ zero_le_two (by norm_num) _
          _ < 10 ^ Numeral.maxDigits := pow_lt_pow_right₀ (by norm_num) (by decide)

end Number

end TextGrammar
