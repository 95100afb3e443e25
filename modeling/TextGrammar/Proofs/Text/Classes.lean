import TextGrammar.Text.Blank
import TextGrammar.Text.Digit

/-!
Classes of characters. Runs of a class are exactly what is taken off the front of a text, and
blanks are neither letters nor digits nor other characters with a numeric value.
-/

namespace TextGrammar.Text

/-! ### Runs -/

/-- The text does not begin with a character of the class. -/
def Stops (inClass : Char → Bool) (text : List Char) : Prop :=
  ∀ c ∈ text.head?, inClass c = false

section

variable {inClass : Char → Bool} {run text : List Char}

theorem stops_nil : Stops inClass [] := by simp [Stops]

theorem stops_cons {c : Char} {rest : List Char} :
    Stops inClass (c :: rest) ↔ inClass c = false := by
  simp [Stops]

theorem stops_dropWhile (inClass : Char → Bool) (text : List Char) :
    Stops inClass (text.dropWhile inClass) := by
  intro c first
  have fails := List.head?_dropWhile_not inClass text
  rwa [Option.mem_def.mp first] at fails

theorem stops_of_append (stops : Stops inClass (run ++ text)) : Stops inClass run := by
  cases run with
  | nil => exact stops_nil
  | cons c rest => exact stops_cons.mpr (stops_cons.mp stops)

variable (all : ∀ c ∈ run, inClass c = true) (stops : Stops inClass text)

include all stops

theorem takeWhile_of_stops : (run ++ text).takeWhile inClass = run := by
  rw [List.takeWhile_append_of_pos all]
  cases text with
  | nil => simp
  | cons c rest => simp [stops_cons.mp stops]

theorem dropWhile_of_stops : (run ++ text).dropWhile inClass = text := by
  rw [List.dropWhile_append_of_pos all]
  cases text with
  | nil => rfl
  | cons c rest => simp [stops_cons.mp stops]

end

/-! ### Disjoint ranges -/

/-- No range of one list meets one of the other. -/
def apart (ranges others : List (Nat × Nat)) : Bool :=
  ranges.all fun range => others.all fun other =>
    Nat.blt range.2 other.1 || Nat.blt other.2 range.1

theorem not_inRanges_of_apart {ranges others : List (Nat × Nat)} (distinct : apart ranges others)
    {point : Nat} (inside : inRanges ranges point = true) : inRanges others point = false := by
  rw [Bool.eq_false_iff]
  intro also
  obtain ⟨range, member, least, most⟩ := inRanges_iff.mp inside
  obtain ⟨other, present, low, high⟩ := inRanges_iff.mp also
  have beside := List.all_eq_true.mp (List.all_eq_true.mp distinct range member) other present
  simp only [Bool.or_eq_true, Nat.blt_eq] at beside
  omega

/-- The rows of decimal digits beyond ASCII, as closed ranges. -/
def decimalRanges : List (Nat × Nat) := decimalZeros.map fun row => (row, row + 9)

/-- The digits beyond ASCII, decimal or not, as closed ranges. -/
def digitRanges : List (Nat × Nat) := decimalRanges ++ otherDigitRanges

theorem isSome_decimalValue?_of_le {c : Char} (beyond : 128 ≤ c.toNat) :
    (decimalValue? c).isSome = inRanges decimalRanges c.toNat := by
  have wide : ¬ c.toNat < 128 := by omega
  rw [decimalValue?, if_neg wide, Option.isSome_map, Bool.eq_iff_iff, List.find?_isSome,
    inRanges, decimalRanges, List.any_map, List.any_eq_true]
  rfl

theorem isDigit_of_le {c : Char} (beyond : 128 ≤ c.toNat) :
    isDigit c = inRanges digitRanges c.toNat := by
  have wide : ¬ c.toNat < 128 := by omega
  rw [isDigit, if_neg wide, isSome_decimalValue?_of_le beyond]
  simp [digitRanges, inRanges]

theorem isLetter_of_le {c : Char} (beyond : 128 ≤ c.toNat) :
    isLetter c = inRanges letterRanges c.toNat := by
  have wide : ¬ c.toNat < 128 := by omega
  rw [isLetter, if_neg wide]

/-! ### Beyond ASCII -/

theorem apart_blank_letter : apart blankRanges letterRanges := by decide +kernel

theorem apart_blank_digit : apart blankRanges digitRanges := by decide +kernel

theorem apart_blank_numeric : apart blankRanges numericRanges := by decide +kernel

/-! ### All characters -/

/-- What holds of the ASCII characters and of all others holds of every character. -/
theorem forall_char (holds : Char → Prop) (ascii : ∀ point : Fin 128, holds (Char.ofNat point))
    (others : ∀ c : Char, 128 ≤ c.toNat → holds c) (c : Char) : holds c := by
  by_cases small : c.toNat < 128
  · have same := ascii ⟨c.toNat, small⟩
    rwa [Char.ofNat_toNat] at same
  · exact others c (by omega)

theorem isLetter_of_isBlank (c : Char) : isBlank c = true → isLetter c = false := by
  refine forall_char (fun c => isBlank c = true → isLetter c = false) (by decide +kernel) ?_ c
  intro c beyond blank
  rw [isLetter_of_le beyond]
  exact not_inRanges_of_apart apart_blank_letter blank

theorem isDigit_of_isBlank (c : Char) : isBlank c = true → isDigit c = false := by
  refine forall_char (fun c => isBlank c = true → isDigit c = false) (by decide +kernel) ?_ c
  intro c beyond blank
  rw [isDigit_of_le beyond]
  exact not_inRanges_of_apart apart_blank_digit blank

theorem isAlphanumeric_of_isBlank {c : Char} (blank : isBlank c = true) :
    isAlphanumeric c = false := by
  have numeric := not_inRanges_of_apart apart_blank_numeric blank
  simp [isAlphanumeric, isLetter_of_isBlank c blank, isDigit_of_isBlank c blank, numeric]

end TextGrammar.Text
