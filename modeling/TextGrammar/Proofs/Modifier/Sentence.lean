import Mathlib
import TextGrammar.Modifier.Sentence
import TextGrammar.Proofs.Text.Classes

/-!
Where capitals are put. Main statement: the characters at the beginning of a text and behind the end
of a sentence and blanks are made capitals if they are lower-case letters of ASCII, and all others
stay as they are.
-/

namespace TextGrammar.Sentence

open Text

/-! ### Where sentences begin -/

/-- The characters end with the end of a sentence. -/
def Ended (before : List Char) : Prop := ∃ front e, before = front ++ [e] ∧ isEnd e = true

/-- The characters end with the end of a sentence and blanks behind it. -/
def Parted (before : List Char) : Prop :=
  ∃ front e blanks, before = front ++ e :: blanks ∧ isEnd e = true ∧ blanks ≠ [] ∧
    ∀ b ∈ blanks, isBlank b = true

/-- What comes behind the characters begins a sentence. -/
def Opens (before : List Char) : Prop := before = [] ∨ Parted before

theorem isBlank_of_isEnd {c : Char} (ends : isEnd c = true) : isBlank c = false := by
  rcases (by simpa [isEnd, or_assoc] using ends : c = '.' ∨ c = '!' ∨ c = '?') with
    rfl | rfl | rfl <;> decide

theorem ended_append {before : List Char} {c : Char} :
    Ended (before ++ [c]) ↔ isEnd c = true := by
  constructor
  · rintro ⟨front, e, same, ends⟩
    obtain ⟨-, rfl⟩ := List.append_singleton_inj.mp same
    exact ends
  · exact fun ends => ⟨before, c, rfl, ends⟩

theorem parted_append {before : List Char} {c : Char} :
    Parted (before ++ [c]) ↔ isBlank c = true ∧ (Ended before ∨ Parted before) := by
  constructor
  · rintro ⟨front, e, blanks, same, ends, nonempty, all⟩
    obtain ⟨rest, b, rfl⟩ := List.eq_nil_or_concat' blanks |>.resolve_left nonempty
    rw [← List.cons_append, ← List.append_assoc] at same
    obtain ⟨rfl, rfl⟩ := List.append_singleton_inj.mp same
    refine ⟨all c (by simp), ?_⟩
    cases rest with
    | nil => exact .inl ⟨front, e, rfl, ends⟩
    | cons d rest =>
      exact .inr ⟨front, e, d :: rest, rfl, ends, List.cons_ne_nil d rest,
        fun b member => all b (List.mem_append_left _ member)⟩
  · rintro ⟨blank, ⟨front, e, rfl, ends⟩ | ⟨front, e, blanks, rfl, ends, nonempty, all⟩⟩
    · exact ⟨front, e, [c], by simp, ends, List.cons_ne_nil c [], by simpa using blank⟩
    · refine ⟨front, e, blanks ++ [c], by simp, ends, by simp, fun b member => ?_⟩
      rcases List.mem_append.mp member with inside | last
      · exact all b inside
      · exact List.mem_singleton.mp last ▸ blank

/-! ### Positions -/

theorem next_eq_behindEnd_iff {position : Position} {c : Char} :
    position.next c = .behindEnd ↔ isEnd c = true := by
  unfold Position.next
  cases isEnd c <;> cases isBlank c <;> cases position <;> decide

theorem next_eq_beginning_iff {position : Position} {c : Char} :
    position.next c = .beginning ↔
      isBlank c = true ∧ (position = .behindEnd ∨ position = .beginning) := by
  unfold Position.next
  cases ends : isEnd c with
  | true => simp [isBlank_of_isEnd ends]
  | false => cases isBlank c <;> cases position <;> decide

/-- The position behind characters that a text begins with. -/
theorem foldl_next_iff (before : List Char) :
    (before.foldl Position.next .inside = .behindEnd ↔ Ended before) ∧
      (before.foldl Position.next .inside = .beginning ↔ Parted before) := by
  induction before using List.reverseRecOn with
  | nil => simp [Ended, Parted]
  | append_singleton before c ih =>
    rw [List.foldl_append, List.foldl_cons, List.foldl_nil, next_eq_behindEnd_iff,
      next_eq_beginning_iff, ended_append, parted_append, ih.1, ih.2]
    exact ⟨Iff.rfl, Iff.rfl⟩

/-! ### Capitals -/

theorem toUpper_of_le {c : Char} (beyond : 128 ≤ c.toNat) : c.toUpper = c := by
  refine Char.toUpper_eq_of_not_isLower fun lower => ?_
  simp only [Char.isLower, Bool.and_eq_true, decide_eq_true_eq] at lower
  have small : c.toNat ≤ 122 := UInt32.le_iff_toNat_le.mp lower.2
  omega

/-- A capital leads to the same position as its small letter. -/
theorem next_toUpper (position : Position) (c : Char) :
    position.next c.toUpper = position.next c := by
  have classes : isEnd c.toUpper = isEnd c ∧ isBlank c.toUpper = isBlank c := by
    refine forall_char (fun c => isEnd c.toUpper = isEnd c ∧ isBlank c.toUpper = isBlank c)
      (by decide +kernel) ?_ c
    intro c beyond
    rw [toUpper_of_le beyond]
    exact ⟨rfl, rfl⟩
  unfold Position.next
  rw [classes.1, classes.2]

theorem getElem?_capitalizeFrom (position : Position) (text : List Char) (index : Nat) :
    (capitalizeFrom position text)[index]? = text[index]?.map fun c =>
      if (text.take index).foldl Position.next position = .beginning then c.toUpper else c := by
  induction text generalizing position index with
  | nil => rfl
  | cons c rest ih =>
    cases index with
    | zero => rfl
    | succ index => exact ih (position.next c) index

theorem foldl_next_capitalizeFrom (position start : Position) (text : List Char) (index : Nat) :
    ((capitalizeFrom position text).take index).foldl Position.next start =
      (text.take index).foldl Position.next start := by
  induction text generalizing position start index with
  | nil => rfl
  | cons c rest ih =>
    cases index with
    | zero => rfl
    | succ index =>
      have same : start.next (if position = .beginning then c.toUpper else c) = start.next c := by
        split
        · exact next_toUpper start c
        · rfl
      rw [capitalizeFrom, List.take_succ_cons, List.take_succ_cons, List.foldl_cons, same, ih]
      rfl

theorem capitalizeFrom_capitalizeFrom (position : Position) (text : List Char) :
    capitalizeFrom position (capitalizeFrom position text) = capitalizeFrom position text := by
  induction text generalizing position with
  | nil => rfl
  | cons c rest ih =>
    rw [capitalizeFrom, capitalizeFrom]
    split
    · rw [next_toUpper, ih, Char.toUpper_toUpper_eq_toUpper]
    · rw [ih]

theorem capitalize_capitalize (text : List Char) :
    capitalize (capitalize text) = capitalize text := by
  cases text with
  | nil => rfl
  | cons c rest =>
    rw [capitalize, capitalize, next_toUpper, capitalizeFrom_capitalizeFrom,
      Char.toUpper_toUpper_eq_toUpper]

/-- What stands where a sentence begins is made a capital, all else stays. -/
theorem getElem?_capitalize {text : List Char} {index : Nat} {c : Char}
    (here : text[index]? = some c) :
    (Opens (text.take index) → (capitalize text)[index]? = some c.toUpper) ∧
      (¬ Opens (text.take index) → (capitalize text)[index]? = some c) := by
  cases text with
  | nil => cases here
  | cons d rest =>
    cases index with
    | zero =>
      cases here
      exact ⟨fun _ => rfl, fun closed => absurd (.inl rfl) closed⟩
    | succ index =>
      have opens : Opens ((d :: rest).take (index + 1)) ↔
          (rest.take index).foldl Position.next (Position.next .inside d) = .beginning := by
        rw [Opens, ← (foldl_next_iff _).2]
        simp
      have found : (capitalize (d :: rest))[index + 1]? = _ :=
        getElem?_capitalizeFrom (Position.next .inside d) rest index
      rw [List.getElem?_cons_succ] at here
      rw [opens, found, here]
      constructor
      · intro begins
        simp [begins]
      · intro goesOn
        simp [goesOn]

/-- Each character stays or is a small letter that begins a sentence and is made a capital. -/
theorem getElem?_capitalize_cases {text : List Char} {index : Nat} {c : Char}
    (here : text[index]? = some c) :
    (capitalize text)[index]? = some c ∨
      Opens (text.take index) ∧ c.isLower = true ∧ (capitalize text)[index]? = some c.toUpper := by
  obtain ⟨raised, kept⟩ := getElem?_capitalize here
  by_cases opens : Opens (text.take index)
  · by_cases lower : c.isLower = true
    · exact .inr ⟨opens, lower, raised opens⟩
    · exact .inl (Char.toUpper_eq_of_not_isLower lower ▸ raised opens)
  · exact .inl (kept opens)

theorem length_capitalize (text : List Char) : (capitalize text).length = text.length := by
  have from' (position : Position) (text : List Char) :
      (capitalizeFrom position text).length = text.length := by
    induction text generalizing position with
    | nil => rfl
    | cons c rest ih => rw [capitalizeFrom, List.length_cons, ih, List.length_cons]
  cases text with
  | nil => rfl
  | cons c rest => rw [capitalize, List.length_cons, from', List.length_cons]

/-- Sentences of the result begin where those of the text do. -/
theorem opens_capitalize {text : List Char} {index : Nat} :
    Opens ((capitalize text).take index) ↔ Opens (text.take index) := by
  cases text with
  | nil => rfl
  | cons c rest =>
    cases index with
    | zero => rfl
    | succ index =>
      rw [Opens, Opens, ← (foldl_next_iff _).2, ← (foldl_next_iff _).2, capitalize,
        List.take_succ_cons, List.take_succ_cons, List.foldl_cons, List.foldl_cons, next_toUpper,
        foldl_next_capitalizeFrom]
      simp

/-- Where a sentence begins there is no small letter of ASCII. -/
theorem isLower_of_opens {text : List Char} {index : Nat} {c : Char}
    (here : (capitalize text)[index]? = some c) (opens : Opens ((capitalize text).take index)) :
    c.isLower = false := by
  obtain ⟨d, original⟩ : ∃ d, text[index]? = some d := by
    have inside := (List.getElem?_eq_some_iff.mp here).1
    rw [length_capitalize] at inside
    exact ⟨_, List.getElem?_eq_getElem inside⟩
  rw [(getElem?_capitalize original).1 (opens_capitalize.mp opens)] at here
  cases here
  exact Char.isLower_toUpper_eq_false d

end TextGrammar.Sentence
