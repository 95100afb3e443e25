import Mathlib.Logic.Basic
import TextGrammar.Condition.Lexeme
import TextGrammar.Proofs.Condition.Derivation
import TextGrammar.Proofs.Number.Digits

/-!
Writing conditions. Every operand stands in parentheses, strings stand in quotes, and a key stands
in brackets or, if it is a word, behind a dot; signs have words beside them, and blanks may stand
around texts and signs. Main statement: the trees that can be written are those of texts, integers
that have few enough digits, booleans and null, whose connectives have at least two operands.
-/

namespace TextGrammar.Condition

open Text Condition.Derivation

/-! ### Strings -/

/-- Characters as they are written between quotes. A backslash stands before the quote and before a
backslash, and may stand before the other quote. -/
inductive Escaped (quote : Char) : List Char → List Char → Prop where
  | done : Escaped quote [] []
  | escaped {c : Char} {value text : List Char} (special : c = '\'' ∨ c = '"' ∨ c = '\\')
      (behind : Escaped quote value text) : Escaped quote (c :: value) ('\\' :: c :: text)
  | plain {c : Char} {value text : List Char} (noQuote : c ≠ quote) (noEscape : c ≠ '\\')
      (behind : Escaped quote value text) : Escaped quote (c :: value) (c :: text)

/-- The text is the string between quotes of one kind. -/
inductive InQuotes (value : String) : List Char → Prop where
  | quotes {quote : Char} {inside : List Char} (isQuote : quote = '\'' ∨ quote = '"')
      (escaped : Escaped quote value.toList inside) : InQuotes value (quote :: (inside ++ [quote]))

/-! ### Operands and signs -/

/-- The text in parentheses. -/
def group (text : List Char) : List Char := '(' :: (text ++ [')'])

/-- The text with any blanks around it. -/
def Padded (text padded : List Char) : Prop :=
  ∃ front back, (∀ c ∈ front, isBlank c = true) ∧ (∀ c ∈ back, isBlank c = true) ∧
    padded = front ++ (text ++ back)

def andSign : Spelling → List Char
  | .sign => ['&', '&']
  | .word => "and".toList

def orSign : Spelling → List Char
  | .sign => ['|', '|']
  | .word => "or".toList

def notSign : Spelling → List Char
  | .sign => ['!']
  | .word => "not".toList

/-- The texts in parentheses, with a sign between any two of them. -/
inductive Joined (sign : Spelling → List Char) : List (List Char) → List Char → Prop where
  | last {text : List Char} : Joined sign [text] (group text)
  | more {spelling : Spelling} {text between joined : List Char} {texts : List (List Char)}
      (padded : Padded (sign spelling) between) (behind : Joined sign texts joined) :
      Joined sign (text :: texts) (group text ++ (between ++ joined))

/-! ### Trees -/

/-- The texts that are written for a tree. -/
inductive Writes : Tree → List Char → Prop where
  | word {name : String} {value : Scalar} (stands : literalWord? name = some value) :
      Writes (.literal value) name.toList
  | string {value : String} {text : List Char} (quoted : InQuotes value text) :
      Writes (.literal (.str value)) text
  | natural {number : Nat} (small : number < 10 ^ Numeral.maxDigits) :
      Writes (.literal (.number (.int number))) (Nat.toDigits 10 number)
  | negative {number : Nat} (small : number < 10 ^ Numeral.maxDigits) :
      Writes (.literal (.number (.int (-number)))) ('-' :: Nat.toDigits 10 number)
  | bracketed {key : String} {text : List Char} (quoted : InQuotes key text) :
      Writes (.lookup key) ("context".toList ++ '[' :: (text ++ [']']))
  | dotted {key : String} (nonempty : key ≠ "") (all : ∀ c ∈ key.toList, isWordChar c = true) :
      Writes (.lookup key) ("context".toList ++ '.' :: key.toList)
  | compare {operator : Operator} {left right : Tree} {leftText rightText between : List Char}
      (padded : Padded operator.text.toList between) (first : Writes left leftText)
      (second : Writes right rightText) :
      Writes (.compare operator left right) (group leftText ++ (between ++ group rightText))
  | not {spelling : Spelling} {operand : Tree} {text before : List Char}
      (padded : Padded (notSign spelling) before) (behind : Writes operand text) :
      Writes (.not operand) (before ++ group text)
  | all {operands : List (Tree × List Char)} {text : List Char} (several : 2 ≤ operands.length)
      (each : ∀ operand ∈ operands, Writes operand.1 operand.2)
      (joined : Joined andSign (operands.map Prod.snd) text) :
      Writes (.all (operands.map Prod.fst)) text
  | any {operands : List (Tree × List Char)} {text : List Char} (several : 2 ≤ operands.length)
      (each : ∀ operand ∈ operands, Writes operand.1 operand.2)
      (joined : Joined orSign (operands.map Prod.snd) text) :
      Writes (.any (operands.map Prod.fst)) text
  | padded {tree : Tree} {text padded : List Char} (pads : Padded text padded)
      (inside : Writes tree text) : Writes tree padded

/-- The trees without real numbers and integers of too many digits, in which every connective has at
least two operands. -/
inductive Expressible : Tree → Prop where
  | null : Expressible (.literal .null)
  | bool (value : Bool) : Expressible (.literal (.bool value))
  | string (value : String) : Expressible (.literal (.str value))
  | integer {value : Int} (small : value.natAbs < 10 ^ Numeral.maxDigits) :
      Expressible (.literal (.number (.int value)))
  | lookup (key : String) : Expressible (.lookup key)
  | compare (operator : Operator) {left right : Tree} (first : Expressible left)
      (second : Expressible right) : Expressible (.compare operator left right)
  | not {operand : Tree} (inside : Expressible operand) : Expressible (.not operand)
  | all {operands : List Tree} (several : 2 ≤ operands.length)
      (each : ∀ operand ∈ operands, Expressible operand) : Expressible (.all operands)
  | any {operands : List Tree} (several : 2 ≤ operands.length)
      (each : ∀ operand ∈ operands, Expressible operand) : Expressible (.any operands)

/-! ### What can be written -/

theorem exists_escaped {quote : Char} (isQuote : quote = '\'' ∨ quote = '"') (value : List Char) :
    ∃ text, Escaped quote value text := by
  induction value with
  | nil => exact ⟨[], .done⟩
  | cons c rest ih =>
    obtain ⟨text, behind⟩ := ih
    by_cases special : c = '\'' ∨ c = '"' ∨ c = '\\'
    · exact ⟨_, .escaped special behind⟩
    · obtain ⟨noSingle, noDouble, noEscape⟩ : c ≠ '\'' ∧ c ≠ '"' ∧ c ≠ '\\' := by
        simpa using special
      have noQuote : c ≠ quote := by
        rcases isQuote with rfl | rfl
        · exact noSingle
        · exact noDouble
      exact ⟨_, .plain noQuote noEscape behind⟩

theorem exists_inQuotes (value : String) : ∃ text, InQuotes value text := by
  obtain ⟨inside, escaped⟩ := exists_escaped (.inl rfl) value.toList
  exact ⟨_, .quotes (.inl rfl) escaped⟩

theorem padded_self (text : List Char) : Padded text text := ⟨[], [], by simp⟩

theorem exists_joined (sign : Spelling → List Char) {texts : List (List Char)}
    (some : texts ≠ []) : ∃ text, Joined sign texts text := by
  induction texts with
  | nil => exact absurd rfl some
  | cons text rest ih =>
    cases rest with
    | nil => exact ⟨_, .last⟩
    | cons next rest =>
      obtain ⟨joined, behind⟩ := ih (List.cons_ne_nil next rest)
      exact ⟨_, .more (padded_self (sign .sign)) behind⟩

/-- Operands of which each can be written, each beside a text of its own. -/
theorem exists_texts {operands : List Tree}
    (each : ∀ operand ∈ operands, ∃ text, Writes operand text) :
    ∃ written : List (Tree × List Char), written.map Prod.fst = operands ∧
      ∀ operand ∈ written, Writes operand.1 operand.2 := by
  induction operands with
  | nil => exact ⟨[], rfl, by simp⟩
  | cons operand rest ih =>
    obtain ⟨text, writes⟩ := each operand List.mem_cons_self
    obtain ⟨written, rfl, others⟩ := ih fun other member =>
      each other (List.mem_cons_of_mem _ member)
    exact ⟨(operand, text) :: written, rfl, List.forall_mem_cons.mpr ⟨writes, others⟩⟩

/-- Several operands of which each can be written can be written with signs between them. -/
theorem exists_writes_joined (sign : Spelling → List Char) {operands : List Tree}
    (several : 2 ≤ operands.length) (each : ∀ operand ∈ operands, ∃ text, Writes operand text) :
    ∃ (written : List (Tree × List Char)) (text : List Char), written.map Prod.fst = operands ∧
      2 ≤ written.length ∧ (∀ operand ∈ written, Writes operand.1 operand.2) ∧
        Joined sign (written.map Prod.snd) text := by
  obtain ⟨written, rfl, writes⟩ := exists_texts each
  rw [List.length_map] at several
  have some : written.map Prod.snd ≠ [] := by
    rintro none
    rw [List.map_eq_nil_iff.mp none] at several
    simp at several
  obtain ⟨text, joined⟩ := exists_joined sign some
  exact ⟨written, text, rfl, several, writes, joined⟩

theorem Expressible.exists_text {tree : Tree} (expressible : Expressible tree) :
    ∃ text, Writes tree text := by
  induction expressible with
  | null => exact ⟨_, @Writes.word "null" .null rfl⟩
  | bool value =>
    cases value with
    | true => exact ⟨_, @Writes.word "true" (.bool true) rfl⟩
    | false => exact ⟨_, @Writes.word "false" (.bool false) rfl⟩
  | string value =>
    obtain ⟨text, quoted⟩ := exists_inQuotes value
    exact ⟨text, .string quoted⟩
  | @integer value small =>
    rcases Int.natAbs_eq value with positive | negative
    · rw [positive]
      exact ⟨_, .natural small⟩
    · rw [negative]
      exact ⟨_, .negative small⟩
  | lookup key =>
    obtain ⟨text, quoted⟩ := exists_inQuotes key
    exact ⟨_, .bracketed quoted⟩
  | compare operator _ _ first second =>
    obtain ⟨left, leftWrites⟩ := first
    obtain ⟨right, rightWrites⟩ := second
    exact ⟨_, .compare (padded_self _) leftWrites rightWrites⟩
  | not _ inside =>
    obtain ⟨text, writes⟩ := inside
    exact ⟨_, .not (padded_self (notSign .sign)) writes⟩
  | all several _ each =>
    obtain ⟨written, text, rfl, several, writes, joined⟩ :=
      exists_writes_joined andSign several each
    exact ⟨text, .all several writes joined⟩
  | any several _ each =>
    obtain ⟨written, text, rfl, several, writes, joined⟩ :=
      exists_writes_joined orSign several each
    exact ⟨text, .any several writes joined⟩

theorem Writes.expressible {tree : Tree} {text : List Char} (writes : Writes tree text) :
    Expressible tree := by
  induction writes with
  | @word name value stands =>
    rw [literalWord?.eq_def] at stands
    split at stands <;> cases stands
    all_goals first | exact .bool _ | exact .null
  | string => exact .string _
  | natural small => exact .integer (by simpa using small)
  | negative small => exact .integer (by simpa using small)
  | bracketed => exact .lookup _
  | dotted => exact .lookup _
  | compare _ _ _ first second => exact .compare _ first second
  | not _ _ inside => exact .not inside
  | all several _ _ each =>
    exact .all (by simpa using several) (List.forall_mem_map.mpr each)
  | any several _ _ each =>
    exact .any (by simpa using several) (List.forall_mem_map.mpr each)
  | padded _ _ inside => exact inside

/-- The trees that can be written. -/
theorem exists_writes_iff {tree : Tree} : (∃ text, Writes tree text) ↔ Expressible tree :=
  ⟨fun ⟨_, writes⟩ => writes.expressible, Expressible.exists_text⟩

end TextGrammar.Condition
