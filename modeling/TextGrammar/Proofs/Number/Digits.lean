import Mathlib.Algebra.Group.Nat.Defs
import TextGrammar.Number.Numeral
import TextGrammar.Proofs.Text.Classes

/-!
Digits that are numerals. Main statements: digits denote an integer exactly if all of them are
decimal and there are not too many, and digits with a fraction denote a real number exactly if all
of them are decimal.
-/

namespace TextGrammar

open Text

/-- A digit that has a decimal value. -/
def Text.isDecimal (c : Char) : Bool := (decimalValue? c).isSome

namespace Numeral

/-! ### Digits in ASCII -/

theorem decimalValue?_lt {c : Char} {value : Nat} (decimal : decimalValue? c = some value) :
    value < 10 := by
  unfold decimalValue? at decimal
  split at decimal
  · split at decimal
    · rename_i digit
      simp only [Char.isDigit, Bool.and_eq_true, decide_eq_true_eq] at digit
      have most : c.toNat ≤ 57 := digit.2
      cases decimal
      omega
    · cases decimal
  · obtain ⟨row, found, rfl⟩ := Option.map_eq_some_iff.mp decimal
    have inside := List.find?_some found
    simp only [Bool.and_eq_true, decide_eq_true_eq] at inside
    omega

/-- The ASCII digit of a value. -/
theorem isDigit_ofNat {value : Nat} (small : value < 10) :
    (Char.ofNat (48 + value)).isDigit = true := by
  have all : ∀ value : Fin 10, (Char.ofNat (48 + value)).isDigit = true := by decide
  exact all ⟨value, small⟩

/-- A digit becomes an ASCII digit if it is decimal, otherwise a question mark. -/
theorem toAscii_of_isDigit {c : Char} (digit : isDigit c = true) :
    (toAscii c).isDigit = isDecimal c ∧ (isDecimal c = false → toAscii c = '?') := by
  by_cases small : c.toNat < 128
  · rw [isDigit, if_pos small] at digit
    simp [toAscii, isDecimal, decimalValue?, small, digit]
  · simp only [toAscii, isDecimal, if_neg small]
    cases decimal : decimalValue? c with
    | none => simp
    | some value => simpa using isDigit_ofNat (decimalValue?_lt decimal)

/-- What digits become: ASCII digits and question marks. -/
def Plain (c : Char) : Prop := c.isDigit = true ∨ c = '?'

theorem plain_toAscii {c : Char} (digit : isDigit c = true) : Plain (toAscii c) := by
  obtain ⟨same, other⟩ := toAscii_of_isDigit digit
  cases decimal : isDecimal c with
  | true => exact .inl (same.trans decimal)
  | false => exact .inr (other decimal)

theorem Plain.ne {c other : Char} (plain : Plain c) (noDigit : other.isDigit = false)
    (noMark : other ≠ '?') : c ≠ other := by
  rintro rfl
  rcases plain with digit | mark
  · rw [noDigit] at digit
    cases digit
  · exact noMark mark

theorem toLower_of_plain {c : Char} (plain : Plain c) : c.toLower = c := by
  rcases plain with digit | rfl
  · simp only [Char.isDigit, Bool.and_eq_true, decide_eq_true_eq] at digit
    have most : c.toNat ≤ 57 := digit.2
    have lower : ¬ (c.val ≥ 'A'.val ∧ c.val ≤ 'Z'.val) := by
      rintro ⟨least, -⟩
      have low : 65 ≤ c.toNat := least
      omega
    exact dif_neg lower
  · decide

/-! ### The steps of reading -/

theorem trimBy_eq_self {inClass : Char → Bool} {text : List Char}
    (none : ∀ c ∈ text, inClass c = false) : trimBy inClass text = text := by
  have front : text.dropWhile inClass = text :=
    @dropWhile_of_stops inClass [] text (by simp) fun c first =>
      none c (List.mem_of_mem_head? first)
  have back : text.reverse.dropWhile inClass = text.reverse :=
    @dropWhile_of_stops inClass [] text.reverse (by simp) fun c first =>
      none c (List.mem_reverse.mp (List.mem_of_mem_head? first))
  rw [trimBy, front, back, List.reverse_reverse]

theorem isNumeralBlank_of_isDigit {c : Char} (digit : isDigit c = true) :
    isNumeralBlank c = false := by
  cases blank : isBlank c with
  | false => simp [isNumeralBlank, blank]
  | true =>
    rw [isDigit_of_isBlank c blank] at digit
    cases digit

theorem dropUnderscores_eq_self {text : List Char} (none : '_' ∉ text) {last : Option Char}
    (before : last ≠ some '_') : dropUnderscores last text = some text := by
  induction text generalizing last with
  | nil => simp [dropUnderscores, before]
  | cons c rest ih =>
    obtain ⟨different, behind⟩ := not_or.mp (mt List.mem_cons.mpr none)
    have next : some c ≠ some '_' := fun same => different (Option.some.inj same).symm
    simp [dropUnderscores, Ne.symm different, before, ih behind next]

theorem takeSign_of_plain {c : Char} {rest : List Char} (plain : Plain c) :
    takeSign (c :: rest) = (false, c :: rest) := by
  have minus : c ≠ '-' := plain.ne (by decide) (by decide)
  have plus : c ≠ '+' := plain.ne (by decide) (by decide)
  unfold takeSign
  split
  · rename_i same
    exact absurd (List.cons.inj same).1 minus
  · rename_i same
    exact absurd (List.cons.inj same).1 plus
  · rfl

/-- Digits and points are read as they are written, each digit as its ASCII digit. -/
theorem plain_text {text : List Char} (all : ∀ c ∈ text, isDigit c = true ∨ c = '.') :
    dropUnderscores none ((trimBy isNumeralBlank text).map toAscii) = some (text.map toAscii) := by
  have unblank : ∀ c ∈ text, isNumeralBlank c = false := by
    intro c member
    rcases all c member with digit | rfl
    · exact isNumeralBlank_of_isDigit digit
    · decide
  have unscored : '_' ∉ text.map toAscii := by
    intro member
    obtain ⟨c, present, same⟩ := List.mem_map.mp member
    rcases all c present with digit | rfl
    · exact (plain_toAscii digit).ne (by decide) (by decide) same
    · revert same
      decide
  rw [trimBy_eq_self unblank]
  exact dropUnderscores_eq_self unscored (by simp)

/-- So are digits with a fraction. -/
theorem plain_fraction {digits places : List Char} (all : ∀ c ∈ digits, isDigit c = true)
    (fraction : ∀ c ∈ places, isDigit c = true) :
    dropUnderscores none ((trimBy isNumeralBlank (digits ++ '.' :: places)).map toAscii) =
      some (digits.map toAscii ++ '.' :: places.map toAscii) := by
  rw [plain_text]
  · simp [show toAscii '.' = '.' by decide]
  · intro c member
    rcases List.mem_append.mp member with digit | behind
    · exact .inl (all c digit)
    · rcases List.mem_cons.mp behind with rfl | digit
      · exact .inr rfl
      · exact .inl (fraction c digit)

theorem all_isDigit_map_toAscii {digits : List Char} (all : ∀ c ∈ digits, isDigit c = true) :
    (digits.map toAscii).all Char.isDigit = digits.all isDecimal := by
  rw [List.all_map, Bool.eq_iff_iff, List.all_eq_true, List.all_eq_true]
  refine forall₂_congr fun c member => ?_
  rw [Function.comp_apply, (toAscii_of_isDigit (all c member)).1]

/-- Either all digits are decimal, or what is left behind the decimal ones begins with a question
mark. -/
theorem decimal_or_mark {digits : List Char} (all : ∀ c ∈ digits, isDigit c = true) :
    digits.all isDecimal = true ∨ digits.all isDecimal = false ∧
      ∃ behind, ∀ tail, (digits.map toAscii ++ tail).dropWhile Char.isDigit =
        '?' :: (behind ++ tail) := by
  induction digits with
  | nil => exact .inl rfl
  | cons c rest ih =>
    obtain ⟨same, mark⟩ := toAscii_of_isDigit (all c List.mem_cons_self)
    cases decimal : isDecimal c with
    | false =>
      refine .inr ⟨by simp [decimal], rest.map toAscii, fun tail => ?_⟩
      rw [List.map_cons, mark decimal]
      rfl
    | true =>
      have digit : (toAscii c).isDigit = true := same.trans decimal
      rcases ih fun c member => all c (List.mem_cons_of_mem _ member) with
        others | ⟨others, behind, left⟩
      · exact .inl (by simp [decimal, others])
      · exact .inr ⟨by simp [others], behind, fun tail => by simp [digit, left]⟩

/-! ### Numerals -/

section

variable {digits : List Char} (nonempty : digits ≠ [])
  (all : ∀ c ∈ digits, isDigit c = true)

include nonempty all

/-- Digits denote an integer exactly if all of them are decimal and there are not too many. -/
theorem integer?_digits :
    integer? digits =
      if digits.all isDecimal = true ∧ digits.length ≤ maxDigits then
        some (digitsValue (digits.map toAscii) : Int)
      else none := by
  obtain ⟨c, rest, rfl⟩ := List.exists_cons_of_ne_nil nonempty
  have plain := plain_text fun c member => Or.inl (all c member)
  have unsigned : takeSign ((c :: rest).map toAscii) = (false, (c :: rest).map toAscii) :=
    takeSign_of_plain (plain_toAscii (all c List.mem_cons_self))
  have ascii := all_isDigit_map_toAscii all
  rw [integer?, plain]
  have filled : ((c :: rest).map toAscii).isEmpty = false := rfl
  simp only [Option.bind_eq_bind, Option.bind_some, unsigned, ascii, filled, List.length_map]
  cases (c :: rest).all isDecimal with
  | false => simp
  | true =>
    by_cases few : (c :: rest).length ≤ maxDigits
    · have bounded : ¬ maxDigits < (c :: rest).length := by omega
      simp only [few, bounded]
      rfl
    · have many : maxDigits < (c :: rest).length := by omega
      simp only [few, many]
      rfl

theorem special?_digits (tail : List Char) :
    special? false (digits.map toAscii ++ tail) = none := by
  obtain ⟨c, rest, rfl⟩ := List.exists_cons_of_ne_nil nonempty
  have plain := plain_toAscii (all c List.mem_cons_self)
  have kept : (toAscii c).toLower = toAscii c := toLower_of_plain plain
  have noI : toAscii c ≠ 'i' := plain.ne (by decide) (by decide)
  have noN : toAscii c ≠ 'n' := plain.ne (by decide) (by decide)
  simp [special?, ← String.toList_inj, kept, noI, noN]

/-- Digits with a fraction denote a real number exactly if all of them are decimal. -/
theorem real?_digits {places : List Char} (fraction : ∀ c ∈ places, isDigit c = true) :
    real? (digits ++ '.' :: places) =
      if (digits ++ places).all isDecimal = true then
        some (scaled false (digitsValue ((digits ++ places).map toAscii)) (-places.length))
      else none := by
  have unsigned : takeSign (digits.map toAscii ++ '.' :: places.map toAscii) =
      (false, digits.map toAscii ++ '.' :: places.map toAscii) := by
    obtain ⟨c, rest, rfl⟩ := List.exists_cons_of_ne_nil nonempty
    exact takeSign_of_plain (plain_toAscii (all c List.mem_cons_self))
  rw [real?, plain_fraction all fraction]
  simp only [Option.bind_eq_bind, Option.bind_some, unsigned, special?_digits nonempty all]
  rcases decimal_or_mark all with decimal | ⟨undecimal, behind, left⟩
  · have whole : ∀ c ∈ digits.map toAscii, c.isDigit = true :=
      List.all_eq_true.mp ((all_isDigit_map_toAscii all).trans decimal)
    have stops : Stops Char.isDigit ('.' :: places.map toAscii) := stops_cons.mpr (by decide)
    have filled : (digits.map toAscii).isEmpty = false := by simpa using nonempty
    simp only [takeWhile_of_stops whole stops, dropWhile_of_stops whole stops, filled,
      List.all_append, decimal]
    rcases decimal_or_mark fraction with decimal | ⟨undecimal, behind, left⟩
    · have places' : ∀ c ∈ places.map toAscii, c.isDigit = true :=
        List.all_eq_true.mp ((all_isDigit_map_toAscii fraction).trans decimal)
      have taken := takeWhile_of_stops places' stops_nil
      have ended := dropWhile_of_stops places' stops_nil
      rw [List.append_nil] at taken ended
      simp [taken, ended, decimal, exponent?]
    · have left := left []
      rw [List.append_nil, List.append_nil] at left
      simp [left, undecimal, exponent?]
  · simp only [left, List.all_append, undecimal]
    simp [exponent?]

end

/-! ### Writing numbers -/

theorem toNat_of_mem_toDigits {number : Nat} {c : Char} (member : c ∈ Nat.toDigits 10 number) :
    48 ≤ c.toNat ∧ c.toNat ≤ 57 := by
  have digit := Nat.isDigit_of_mem_toDigits (by decide) (by decide) member
  simp only [Char.isDigit, Bool.and_eq_true, decide_eq_true_eq] at digit
  exact digit

theorem isDigit_of_mem_toDigits {number : Nat} {c : Char}
    (member : c ∈ Nat.toDigits 10 number) : isDigit c = true := by
  have low : c.toNat < 128 := Nat.lt_of_le_of_lt (toNat_of_mem_toDigits member).2 (by decide)
  rw [isDigit, if_pos low]
  exact Nat.isDigit_of_mem_toDigits (by decide) (by decide) member

theorem digitsValue_toDigits (number : Nat) : digitsValue (Nat.toDigits 10 number) = number := by
  have spelled := Nat.ofDigitChars_ten_toDigits (n := number)
  simp only [Nat.ofDigitChars, Nat.mul_comm] at spelled
  exact spelled

/-- The decimal digits of a number denote it, if there are not too many. -/
theorem integer?_toDigits {number : Nat} (small : number < 10 ^ maxDigits) :
    integer? (Nat.toDigits 10 number) = some (number : Int) := by
  have low : ∀ c ∈ Nat.toDigits 10 number, c.toNat < 128 := fun c member =>
    Nat.lt_of_le_of_lt (toNat_of_mem_toDigits member).2 (by decide)
  have decimal : (Nat.toDigits 10 number).all isDecimal = true := by
    apply List.all_eq_true.mpr
    intro c member
    have digit := Nat.isDigit_of_mem_toDigits (by decide) (by decide) member
    simp [isDecimal, decimalValue?, low c member, digit]
  have same : (Nat.toDigits 10 number).map toAscii = Nat.toDigits 10 number := by
    have kept : ∀ c ∈ Nat.toDigits 10 number, toAscii c = id c := fun c member =>
      if_pos (low c member)
    rw [List.map_congr_left kept, List.map_id]
  have few : (Nat.toDigits 10 number).length ≤ maxDigits :=
    (Nat.length_toDigits_le_iff (by decide) (by decide)).mpr small
  rw [integer?_digits Nat.toDigits_ne_nil fun c => isDigit_of_mem_toDigits, if_pos ⟨decimal, few⟩,
    same, digitsValue_toDigits]

end Numeral

end TextGrammar
