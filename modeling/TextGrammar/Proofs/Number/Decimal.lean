import TextGrammar.Number.Fixed
import TextGrammar.Proofs.Number.Digits
import TextGrammar.Proofs.Number.Exact

/-!
Numbers with a fixed count of decimal places. Main statement: the text of a finite number denotes a
decimal of so many places that is nearest to its value; so it is the value itself exactly if that is
such a decimal, and it does not pass one.
-/

namespace TextGrammar

/-! ### Decimals -/

/-- The rationals with so many decimal places. -/
def IsDecimal (places : Nat) (value : ℚ) : Prop := ∃ units : Int, value * 10 ^ places = units

/-- A decimal of so many places to which no other one is nearer. -/
structure NearestDecimal (places : Nat) (value decimal : ℚ) : Prop where
  isDecimal : IsDecimal places decimal
  near : |decimal - value| * 10 ^ places ≤ 1 / 2

namespace NearestDecimal

variable {places : Nat} {value decimal bound : ℚ}

theorem neg (nearest : NearestDecimal places value decimal) :
    NearestDecimal places (-value) (-decimal) := by
  obtain ⟨⟨units, same⟩, near⟩ := nearest
  refine ⟨⟨-units, by rw [neg_mul, same, Int.cast_neg]⟩, ?_⟩
  rwa [← neg_sub_neg, neg_neg, neg_neg, abs_sub_comm]

/-- Rounding does not pass a decimal. -/
theorem le (nearest : NearestDecimal places value decimal) (exact : IsDecimal places bound)
    (below : value ≤ bound) : decimal ≤ bound := by
  obtain ⟨⟨units, same⟩, near⟩ := nearest
  obtain ⟨most, limit⟩ := exact
  have unit_pos : (0 : ℚ) < 10 ^ places := by positivity
  rw [← abs_of_pos unit_pos, ← abs_mul, sub_mul, same, abs_le] at near
  have scaled : value * 10 ^ places ≤ most := limit ▸ mul_le_mul_of_nonneg_right below unit_pos.le
  have less : (units : ℚ) < most + 1 := by linarith [near.2]
  refine le_of_mul_le_mul_right ?_ unit_pos
  rw [same, limit]
  exact_mod_cast Int.lt_add_one_iff.mp (by exact_mod_cast less)

theorem ge (nearest : NearestDecimal places value decimal) (exact : IsDecimal places bound)
    (above : bound ≤ value) : bound ≤ decimal := by
  have opposite : IsDecimal places (-bound) := by
    obtain ⟨units, same⟩ := exact
    exact ⟨-units, by rw [neg_mul, same, Int.cast_neg]⟩
  exact neg_le_neg_iff.mp (nearest.neg.le opposite (neg_le_neg above))

/-- Only a decimal is its own nearest one. -/
theorem eq_iff (nearest : NearestDecimal places value decimal) :
    decimal = value ↔ IsDecimal places value := by
  constructor
  · rintro rfl
    exact nearest.isDecimal
  · intro exact
    exact le_antisymm (nearest.le exact le_rfl) (nearest.ge exact le_rfl)

end NearestDecimal

/-! ### Texts -/

namespace Numeral

open Text

/-- The number that digits denote, with a sign and a point or without them. -/
def decimal? (text : List Char) : Option ℚ :=
  let (negative, unsigned) := takeSign text
  let whole := unsigned.takeWhile Char.isDigit
  let (fraction, rest) := match unsigned.dropWhile Char.isDigit with
    | '.' :: rest => (rest.takeWhile Char.isDigit, rest.dropWhile Char.isDigit)
    | rest => ([], rest)
  if whole.isEmpty || !rest.isEmpty then none
  else
    let magnitude : ℚ := digitsValue (whole ++ fraction) / 10 ^ fraction.length
    some (if negative then -magnitude else magnitude)

theorem digitsValue_zeros_append (count : Nat) (digits : List Char) :
    digitsValue (List.replicate count '0' ++ digits) = digitsValue digits := by
  induction count with
  | zero => rfl
  | succ count ih => exact ih

/-- Digits before and behind a point; no point stands before no digits. -/
def pointed (whole fraction : List Char) : List Char :=
  whole ++ if fraction = [] then [] else '.' :: fraction

variable {whole fraction : List Char}

theorem takeSign_pointed (nonempty : whole ≠ []) (digits : ∀ c ∈ whole, c.isDigit = true) :
    takeSign (pointed whole fraction) = (false, pointed whole fraction) := by
  obtain ⟨c, rest, rfl⟩ := List.exists_cons_of_ne_nil nonempty
  exact takeSign_of_plain (.inl (digits c List.mem_cons_self))

/-- The digits denote their number with as many places as stand behind the point. -/
theorem decimal?_of_takeSign (nonempty : whole ≠ []) (digits : ∀ c ∈ whole, c.isDigit = true)
    (places : ∀ c ∈ fraction, c.isDigit = true) {text : List Char} {negative : Bool}
    (signed : takeSign text = (negative, pointed whole fraction)) :
    decimal? text =
      let magnitude : ℚ := digitsValue (whole ++ fraction) / 10 ^ fraction.length
      some (if negative then -magnitude else magnitude) := by
  have filled : whole.isEmpty = false := by simpa using nonempty
  rw [decimal?, signed]
  simp only [pointed]
  by_cases integer : fraction = []
  · subst integer
    have taken := takeWhile_of_stops digits stops_nil
    have left := dropWhile_of_stops digits stops_nil
    rw [List.append_nil] at taken left
    simp [taken, left, filled]
  · have stops : Stops Char.isDigit ('.' :: fraction) := stops_cons.mpr (by decide)
    have taken := takeWhile_of_stops places stops_nil
    have ended := dropWhile_of_stops places stops_nil
    rw [List.append_nil] at taken ended
    simp [integer, takeWhile_of_stops digits stops, dropWhile_of_stops digits stops, taken, ended,
      filled]

end Numeral

namespace Binary64

open Numeral

/-- The text consists of the digits of the units, the last places of them behind the point. -/
theorem exists_pointed (places units : Nat) : ∃ whole fraction,
    (withPoint places units).toList = pointed whole fraction ∧ whole ≠ [] ∧
      (∀ c ∈ whole, c.isDigit = true) ∧ (∀ c ∈ fraction, c.isDigit = true) ∧
      fraction.length = places ∧ digitsValue (whole ++ fraction) = units := by
  obtain ⟨padded, same⟩ : ∃ padded,
      List.replicate (places + 1 - (Nat.toDigits 10 units).length) '0' ++ Nat.toDigits 10 units =
        padded := ⟨_, rfl⟩
  have digits : ∀ c ∈ padded, c.isDigit = true := by
    rw [← same]
    intro c member
    rcases List.mem_append.mp member with zero | digit
    · rw [List.eq_of_mem_replicate zero]
      decide
    · exact Nat.isDigit_of_mem_toDigits (by decide) (by decide) digit
  -- the zeros in front leave a digit before the point
  have long : places + 1 ≤ padded.length := by
    rw [← same, List.length_append, List.length_replicate]
    omega
  have value : digitsValue padded = units := by
    rw [← same, digitsValue_zeros_append, digitsValue_toDigits]
  have split := List.take_append_drop (padded.length - places) padded
  have behind : (padded.drop (padded.length - places)).length = places := by
    rw [List.length_drop]
    omega
  refine ⟨padded.take (padded.length - places), padded.drop (padded.length - places), ?_, ?_,
    fun c member => digits c (List.mem_of_mem_take member),
    fun c member => digits c (List.mem_of_mem_drop member), behind, by rw [split, value]⟩
  · simp only [withPoint, same, String.toList_ofList, pointed]
    by_cases integer : places = 0
    · subst integer
      simp
    · have some : padded.drop (padded.length - places) ≠ [] := by
        rw [← List.length_pos_iff, behind]
        omega
      rw [if_neg integer, if_neg some]
  · rw [← List.length_pos_iff, List.length_take]
    omega

theorem decimal?_fixed (places : Nat) (negative : Bool) (significand : Nat) (exponent : Int) :
    decimal? ((finite negative significand exponent).fixed places).toList =
      let magnitude : ℚ := fixedUnits places significand exponent / 10 ^ places
      some (if negative then -magnitude else magnitude) := by
  obtain ⟨whole, fraction, text, nonempty, digits, places', count, value⟩ :=
    exists_pointed places (fixedUnits places significand exponent)
  have signed : takeSign ((finite negative significand exponent).fixed places).toList =
      (negative, pointed whole fraction) := by
    rw [fixed, String.toList_append, text]
    cases negative with
    | true => rfl
    | false => exact takeSign_pointed nonempty digits
  rw [decimal?_of_takeSign nonempty digits places' signed, count, value]

theorem abs_fixedUnits_sub_le (places significand : Nat) (exponent : Int) :
    |(fixedUnits places significand exponent : ℚ) - significand * 2 ^ exponent * 10 ^ places| ≤
      1 / 2 := by
  rw [fixedUnits]
  split
  · rename_i whole
    obtain ⟨power, rfl⟩ := Int.eq_ofNat_of_zero_le whole
    show |((significand * 2 ^ power * 10 ^ places : ℕ) : ℚ) - _| ≤ _
    rw [zpow_natCast]
    push_cast
    rw [sub_self, abs_zero]
    norm_num
  · rename_i fraction
    obtain ⟨power, rfl⟩ := Int.eq_negSucc_of_lt_zero (not_le.mp fraction)
    show |(roundHalfEven (significand * 10 ^ places) (2 ^ (power + 1)) : ℚ) - _| ≤ _
    have quotient : (significand : ℚ) * 2 ^ Int.negSucc power * 10 ^ places =
        ((significand * 10 ^ places : ℕ) : ℚ) / (2 ^ (power + 1) : ℕ) := by
      rw [zpow_negSucc]
      push_cast
      ring
    rw [quotient]
    exact abs_roundHalfEven_sub_le (Nat.two_pow_pos _)

/-- The text of a finite number denotes a decimal nearest to its value. -/
theorem nearestDecimal_fixed {number : Binary64} {value : ℚ} (same : number.value? = some value)
    (places : Nat) : ∃ decimal, decimal? (number.fixed places).toList = some decimal ∧
      NearestDecimal places value decimal := by
  obtain ⟨negative, significand, exponent, rfl, rfl⟩ := exists_finite same
  refine ⟨_, decimal?_fixed places negative significand exponent, ?_⟩
  have magnitude : NearestDecimal places (significand * 2 ^ exponent)
      (fixedUnits places significand exponent / 10 ^ places) := by
    have unit_pos : (0 : ℚ) < 10 ^ places := by positivity
    have scaled : (fixedUnits places significand exponent / 10 ^ places : ℚ) * 10 ^ places =
        fixedUnits places significand exponent := div_mul_cancel₀ _ unit_pos.ne'
    refine ⟨⟨fixedUnits places significand exponent, by rw [scaled, Int.cast_natCast]⟩, ?_⟩
    rw [← abs_of_pos unit_pos, ← abs_mul, abs_of_pos unit_pos, sub_mul, scaled]
    exact abs_fixedUnits_sub_le places significand exponent
  rw [toRat_finite]
  cases negative with
  | true => exact magnitude.neg
  | false => exact magnitude

end Binary64

end TextGrammar
