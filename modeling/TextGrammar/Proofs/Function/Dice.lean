import Mathlib.Data.Nat.Init
import TextGrammar.Proofs.History.Sequential
import TextGrammar.Proofs.Number.Short
import TextGrammar.Proofs.Rule.Worlds

/-!
Dice. Main statement: if every row of faces can come up, dice give exactly the numerals of the
integers from the sum in which every die shows one up to the sum in which every die shows its
highest face, except that a sum with too many digits is a fault; and a throw takes one draw for each
die.
-/

namespace TextGrammar

open Effect

variable {ω : Type}

/-- The numbers below a bound that a source draws one after the other, and the source behind
them. -/
def Draws.row [Draws ω] (bound : Nat) (positive : 0 < bound) : Nat → ω → List (Fin bound) × ω
  | 0, source => ([], source)
  | count + 1, source =>
    let (first, later) := Draws.below bound positive source
    let (others, behind) := Draws.row bound positive count later
    (first :: others, behind)

theorem Draws.length_row [Draws ω] {bound : Nat} (positive : 0 < bound) (count : Nat) (source : ω) :
    (Draws.row bound positive count source).1.length = count := by
  induction count generalizing source with
  | zero => rfl
  | succ count ih => exact congrArg (· + 1) (ih _)

namespace Builtin

/-! ### Sums of faces -/

/-- The sum that dice show, whose faces begin with one. -/
def pips {sides : Nat} (faces : List (Fin sides)) : Nat := (faces.map fun face => face.val + 1).sum

theorem pips_cons {sides : Nat} (face : Fin sides) (faces : List (Fin sides)) :
    pips (face :: faces) = face.val + 1 + pips faces := by
  simp [pips]

/-- Between the least sum and the greatest one there are no gaps. -/
theorem exists_pips_iff {sides : Nat} (positive : 0 < sides) (count sum : Nat) :
    (∃ faces : List (Fin sides), faces.length = count ∧ pips faces = sum) ↔
      count ≤ sum ∧ sum ≤ count * sides := by
  induction count generalizing sum with
  | zero =>
    constructor
    · rintro ⟨faces, none, rfl⟩
      rw [List.length_eq_zero_iff] at none
      simp [none, pips]
    · rintro ⟨-, none⟩
      exact ⟨[], rfl, by simpa [pips, eq_comm] using none⟩
  | succ count ih =>
    rw [Nat.succ_mul]
    constructor
    · rintro ⟨faces, length, rfl⟩
      obtain ⟨face, rest, rfl⟩ := List.exists_cons_of_length_eq_add_one length
      obtain ⟨least, most⟩ := (ih (pips rest)).mp ⟨rest, Nat.succ.inj length, rfl⟩
      have low := face.isLt
      rw [pips_cons]
      omega
    · rintro ⟨least, most⟩
      have fewest : count ≤ count * sides := Nat.le_mul_of_pos_right count positive
      -- the first die shows as much as the others can spare
      obtain ⟨rest, length, others⟩ := (ih (sum - min sides (sum - count))).mpr (by omega)
      refine ⟨⟨min sides (sum - count) - 1, by omega⟩ :: rest, by rw [List.length_cons, length], ?_⟩
      rw [pips_cons, others]
      show min sides (sum - count) - 1 + 1 + (sum - min sides (sum - count)) = sum
      omega

/-! ### Throws -/

/-- What comes of a sum: its numeral, unless that has too many digits. -/
def written (sum : Nat) : Except Failure Value :=
  if sum < 10 ^ Numeral.maxDigits then .ok (single (toString sum)) else .error (.fault .notNumeral)

theorem numeral_apply (sum : Nat) (world : ω) :
    (numeral sum : Act ω Value) world = (written sum, world) := by
  rw [numeral, Numeral.text_eq, written]
  by_cases short : sum < 10 ^ Numeral.maxDigits
  · rw [if_pos (Numeral.short_natCast.mpr short), if_pos short]
    rfl
  · rw [if_neg (mt Numeral.short_natCast.mp short), if_neg short]
    rfl

/-- A parameter that is given and not zero is what counts. -/
theorem integer_given {parameters : Fields} {key : String} {value : Int}
    (given : parameters.get key = .int value) (nonzero : value ≠ 0) (otherwise : Int) (world : ω) :
    (integer parameters key otherwise : Act ω Int) world = (.ok value, world) := by
  have counts : (Value.int value).truthy = true := by
    simp [Value.truthy, Scalar.truthy, Number.isZero, nonzero]
  simp only [integer, given]
  rw [if_pos counts]
  rfl

section

variable [World ω] {sides : Nat} (positive : 0 < sides)

theorem between_one (world : ω) :
    (between 1 sides : Act ω Int) world =
      (.ok (1 + (Draws.below sides positive world).1.val),
        (Draws.below sides positive world).2) := by
  unfold between
  generalize span : ((sides : Int) - 1 + 1).toNat = bound
  obtain rfl : sides = bound := by omega
  rw [dif_pos positive]
  rfl

/-- Dice that are thrown one after the other show what the world draws. -/
theorem rollAll_apply (count : Nat) (sum : Int) (world : ω) :
    (rollAll sides count sum : Act ω Int) world =
      (.ok (sum + pips (Draws.row sides positive count world).1),
        (Draws.row sides positive count world).2) := by
  induction count generalizing sum world with
  | zero =>
    have none : pips (Draws.row sides positive 0 world).1 = 0 := rfl
    rw [none, Nat.cast_zero, Int.add_zero]
    rfl
  | succ count ih =>
    have others := ih (sum + (1 + (Draws.below sides positive world).1.val))
      (Draws.below sides positive world).2
    rw [rollAll, bind_apply, between_one positive]
    simp only [others, Draws.row, pips_cons]
    congr 2
    push_cast
    ring

variable {count : Nat} {parameters : Fields} (thrown : 0 < count)
  (sidesGiven : parameters.get "sides" = .int sides)
  (countGiven : parameters.get "count" = .int count)

include thrown sidesGiven countGiven

theorem diceRoll_apply (world : ω) :
    diceRoll parameters world =
      (written (pips (Draws.row sides positive count world).1),
        (Draws.row sides positive count world).2) := by
  have rolled := rollAll_apply positive count 0 world
  rw [Int.zero_add] at rolled
  rw [diceRoll, bind_apply, integer_given sidesGiven (by omega)]
  simp only
  rw [bind_apply, integer_given countGiven (by omega)]
  simp only [Int.toNat_natCast]
  rw [bind_apply, rolled]
  exact numeral_apply _ _

/-- If every row of faces can come up, the results of a throw are what comes of the sums that the
dice can show, which have no gaps, and a throw takes one draw for each die. -/
theorem diceRoll_exact
    (free : ∀ faces : List (Fin sides), ∃ world : ω,
      (Draws.row sides positive faces.length world).1 = faces) :
    (∀ outcome, (∃ world : ω, (diceRoll parameters world).1 = outcome) ↔
      ∃ sum, count ≤ sum ∧ sum ≤ count * sides ∧ outcome = written sum) ∧
    ∀ world : ω, (diceRoll parameters world).2 = (Draws.row sides positive count world).2 := by
  have thrown (world : ω) := diceRoll_apply positive thrown sidesGiven countGiven world
  refine ⟨fun outcome => ⟨?_, ?_⟩, fun world => congrArg Prod.snd (thrown world)⟩
  · rintro ⟨world, rfl⟩
    have length := Draws.length_row positive count world
    obtain ⟨least, most⟩ := (exists_pips_iff positive count _).mp ⟨_, length, rfl⟩
    refine ⟨pips (Draws.row sides positive count world).1, least, most, ?_⟩
    rw [thrown]
  · rintro ⟨sum, least, most, same⟩
    obtain ⟨faces, rfl, rfl⟩ := (exists_pips_iff positive count sum).mpr ⟨least, most⟩
    obtain ⟨world, shows⟩ := free faces
    refine ⟨world, ?_⟩
    rw [thrown, shows, same]

end

/-! ### Scripted dice -/

/-- A world in which the dice show given faces. -/
def showing {sides : Nat} (faces : List (Fin sides)) : Script :=
  ⟨faces.map fun face => .int face.val, []⟩

theorem row_showing {sides : Nat} (positive : 0 < sides) (faces : List (Fin sides)) :
    (Draws.row sides positive faces.length (showing faces)).1 = faces := by
  have shows (calls : List DrawCall) : (Draws.row sides positive faces.length
      (⟨faces.map fun face => .int face.val, calls⟩ : Script)).1 = faces := by
    induction faces generalizing calls with
    | nil => rfl
    | cons face rest ih =>
      have drawn : Draws.below sides positive
          (⟨(face :: rest).map fun face => .int face.val, calls⟩ : Script) =
            (face, ⟨rest.map fun face => .int face.val, .below sides :: calls⟩) :=
        Script.below_of_lt positive face rfl
      simp only [List.length_cons, Draws.row, drawn, ih]
  exact shows []

/-- Three dice with six faces can show eighteen, and so they give it in some world. -/
theorem three_dice_give_eighteen :
    let parameters : Fields := [(.str "sides", .int 6), (.str "count", .int 3)]
    (∀ faces : List (Fin 6), ∃ world : Script,
      (Draws.row 6 (by decide) faces.length world).1 = faces) ∧
    parameters.get "sides" = .int (6 : Nat) ∧ parameters.get "count" = .int (3 : Nat) ∧
    ∃ world : Script, (diceRoll parameters world).1 = .ok (single "18") := by
  intro parameters
  have free (faces : List (Fin 6)) : ∃ world : Script,
      (Draws.row 6 (by decide) faces.length world).1 = faces := ⟨_, row_showing _ faces⟩
  have short : 18 < 10 ^ Numeral.maxDigits :=
    Nat.lt_of_lt_of_le (by decide : 18 < 10 ^ 2) (Nat.pow_le_pow_right (by decide) (by decide))
  have eighteen : written 18 = .ok (single "18") := if_pos short
  have sides : parameters.get "sides" = .int (6 : Nat) := rfl
  have count : parameters.get "count" = .int (3 : Nat) := rfl
  have given := ((diceRoll_exact (by decide) (by decide) sides count free).1 (written 18)).mpr
    ⟨18, by decide, by decide, rfl⟩
  exact ⟨free, sides, count, eighteen ▸ given⟩

/-- Ten dice with their highest faces up show a sum that is too long to be written. -/
theorem highest_faces_are_too_long :
    ¬ ∀ (sides count : Nat) (parameters : Fields), 0 < sides → 0 < count →
      parameters.get "sides" = .int sides → parameters.get "count" = .int count →
      ∀ outcome, (∃ world : Script, (diceRoll parameters world).1 = outcome) ↔
        ∃ sum, count ≤ sum ∧ sum ≤ count * sides ∧ outcome = .ok (single (toString sum)) := by
  intro always
  let parameters : Fields :=
    [(.str "sides", .int (10 ^ (Numeral.maxDigits - 1) : Nat)), (.str "count", .int (10 : Nat))]
  have long : 10 * 10 ^ (Numeral.maxDigits - 1) = 10 ^ Numeral.maxDigits :=
    mul_pow_sub_one (by decide) 10
  have positive : 0 < 10 ^ (Numeral.maxDigits - 1) := Nat.pow_pos (by decide)
  have sidesGiven : parameters.get "sides" = .int (10 ^ (Numeral.maxDigits - 1) : Nat) := rfl
  have countGiven : parameters.get "count" = .int (10 : Nat) := rfl
  generalize 10 ^ (Numeral.maxDigits - 1) = sides at *
  obtain ⟨faces, length, shown⟩ := (exists_pips_iff positive 10 (10 * sides)).mpr
    ⟨Nat.le_mul_of_pos_right 10 positive, le_rfl⟩
  have thrown := diceRoll_apply positive (by decide) sidesGiven countGiven (showing faces)
  rw [← length, row_showing, shown, long, written, if_neg (Nat.lt_irrefl _)] at thrown
  obtain ⟨sum, -, -, same⟩ := (always sides 10 parameters positive (by decide) sidesGiven countGiven
    (.error (.fault .notNumeral))).mp ⟨_, congrArg Prod.fst thrown⟩
  cases same

end Builtin

end TextGrammar
