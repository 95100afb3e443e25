import Mathlib.Logic.Basic
import TextGrammar.Condition.Lexeme
import TextGrammar.Proofs.Number.Digits

/-!
The lexical grammar of conditions as data: the characters that spell a token, given what comes
behind them, and the texts that spell a list of tokens. Main statements: the lexemes of a text are
those of the tokens that it spells, and reading them meets digits that denote no number exactly if
such digits stand behind tokens that can be read.
-/

namespace TextGrammar.Condition

open Text

/-! ### Lexemes -/

/-- The characters between quotes, and the text that they denote. -/
inductive Quoted (quote : Char) : List Char → List Char → Prop where
  | done : Quoted quote [] []
  | escaped {c : Char} {rest value : List Char} (behind : Quoted quote rest value) :
      Quoted quote ('\\' :: c :: rest) (unescape c :: value)
  | plain {c : Char} {rest value : List Char} (noQuote : c ≠ quote) (noEscape : c ≠ '\\')
      (behind : Quoted quote rest value) : Quoted quote (c :: rest) (c :: value)

/-- The characters of a number, given what comes behind them: digits, and if a digit follows a
point, the point and the digits behind it. -/
inductive Digits : List Char → List Char → Prop where
  | whole {digits following : List Char} (nonempty : digits ≠ [])
      (all : ∀ c ∈ digits, isDigit c = true) (stops : Stops isDigit following)
      (noFraction : ∀ rest, following = '.' :: rest → Stops isDigit rest) :
      Digits digits following
  | fraction {digits places following : List Char} (nonempty : digits ≠ [])
      (all : ∀ c ∈ digits, isDigit c = true) (some : places ≠ [])
      (others : ∀ c ∈ places, isDigit c = true) (stops : Stops isDigit following) :
      Digits (digits ++ '.' :: places) following

/-- The tokens that are no strings, no numbers and no words, and their characters. -/
def symbols : List (List Char × Token) :=
  Operator.all.map (fun operator => (operator.text.toList, .compare operator)) ++
    [(['&', '&'], .and), (['|', '|'], .or), (['.'], .dot), (['['], .openBracket),
      ([']'], .closeBracket), (['('], .openParen), ([')'], .closeParen), (['!'], .bang),
      (['-'], .minus)]

/-- The characters that spell a token, behind a dot or not, given what comes behind them. No
lexeme can be made longer. -/
inductive Spells (afterDot : Bool) : Token → List Char → List Char → Prop where
  | string {quote : Char} {inside value following : List Char}
      (isQuote : quote = '\'' ∨ quote = '"') (quoted : Quoted quote inside value) :
      Spells afterDot (.string (String.ofList value)) (quote :: (inside ++ [quote])) following
  | word {c : Char} {rest following : List Char}
      (begins : isWordStart c = true ∨ afterDot = true ∧ isWordChar c = true)
      (all : ∀ c ∈ rest, isWordChar c = true) (stops : Stops isWordChar following) :
      Spells afterDot (.word (String.ofList (c :: rest))) (c :: rest) following
  | number {lexeme following : List Char} {value : Number} (apart : afterDot = false)
      (noWord : Stops isWordStart lexeme) (digits : Digits lexeme following)
      (denotes : numberOf lexeme = .ok value) : Spells afterDot (.number value) lexeme following
  | symbol {token : Token} {characters following : List Char}
      (symbol : (characters, token) ∈ symbols)
      (longest : ∀ other ∈ symbols, other.1 <+: characters ++ following →
        other.1.length ≤ characters.length) : Spells afterDot token characters following

/-- The text spells the tokens, with blanks around them. -/
inductive Lexed : Bool → List Char → List Token → Prop where
  | done {afterDot : Bool} : Lexed afterDot [] []
  | blank {afterDot : Bool} {c : Char} {rest : List Char} {tokens : List Token}
      (blank : isBlank c = true) (behind : Lexed afterDot rest tokens) :
      Lexed afterDot (c :: rest) tokens
  | token {afterDot : Bool} {token : Token} {characters following : List Char}
      {tokens : List Token} (spells : Spells afterDot token characters following)
      (behind : Lexed (token = .dot) following tokens) :
      Lexed afterDot (characters ++ following) (token :: tokens)

/-- Digits that denote no number: one of them is not decimal, or they are too many and have no
fraction. -/
def Undenoting (lexeme : List Char) : Prop :=
  (∃ c ∈ lexeme, c ≠ '.' ∧ isDecimal c = false) ∨ '.' ∉ lexeme ∧ Numeral.maxDigits < lexeme.length

/-- Behind tokens that can be read, there are digits that denote no number. -/
inductive Misnumbered : Bool → List Char → Prop where
  | here {lexeme following : List Char} (noWord : Stops isWordStart lexeme)
      (digits : Digits lexeme following) (undenoting : Undenoting lexeme) :
      Misnumbered false (lexeme ++ following)
  | blank {afterDot : Bool} {c : Char} {rest : List Char} (blank : isBlank c = true)
      (behind : Misnumbered afterDot rest) : Misnumbered afterDot (c :: rest)
  | token {afterDot : Bool} {token : Token} {characters following : List Char}
      (spells : Spells afterDot token characters following)
      (behind : Misnumbered (token = .dot) following) :
      Misnumbered afterDot (characters ++ following)

/-! ### Strings -/

theorem stringBody_of_quoted {quote : Char} (noEscape : quote ≠ '\\') {inside value : List Char}
    (quoted : Quoted quote inside value) (following : List Char) :
    stringBody quote (inside ++ quote :: following) = some (value, inside.length + 1) := by
  induction quoted with
  | done =>
    rw [List.nil_append, stringBody]
    · simp
    · rintro c rest rfl
      exact absurd rfl noEscape
  | escaped behind ih => simp [stringBody, ih]
  | @plain c rest value noQuote noEscape behind ih =>
    rw [List.cons_append, stringBody]
    · simp [noQuote, ih]
    · rintro c rest rfl
      exact absurd rfl noEscape

theorem quoted_of_stringBody {quote : Char} {text value : List Char} {count : Nat}
    (read : stringBody quote text = some (value, count)) :
    ∃ inside following, text = inside ++ quote :: following ∧ count = inside.length + 1 ∧
      Quoted quote inside value := by
  induction text using stringBody.induct quote generalizing value count with
  | case1 => cases read
  | case2 c rest ih =>
    rw [stringBody] at read
    obtain ⟨⟨value, count⟩, inner, same⟩ := Option.map_eq_some_iff.mp read
    cases same
    obtain ⟨inside, following, rfl, rfl, quoted⟩ := ih inner
    exact ⟨'\\' :: c :: inside, following, rfl, rfl, .escaped quoted⟩
  | case3 rest noEscape =>
    rw [stringBody.eq_3 quote quote rest noEscape, if_pos rfl] at read
    cases read
    exact ⟨[], rest, rfl, rfl, .done⟩
  | case4 c rest noEscape noQuote ih =>
    rw [stringBody.eq_3 quote c rest noEscape, if_neg noQuote] at read
    obtain ⟨⟨value, count⟩, inner, same⟩ := Option.map_eq_some_iff.mp read
    cases same
    obtain ⟨inside, following, rfl, rfl, quoted⟩ := ih inner
    refine ⟨c :: inside, following, rfl, rfl, .plain noQuote ?_ quoted⟩
    -- a backslash takes whatever comes next, and something does
    rintro rfl
    cases inside with
    | nil => exact noEscape quote following rfl rfl
    | cons next inside => exact noEscape next (inside ++ quote :: following) rfl rfl

/-! ### Numbers -/

theorem numberLexeme_of_digits {lexeme following : List Char} (digits : Digits lexeme following) :
    numberLexeme (lexeme ++ following) = lexeme := by
  cases digits with
  | whole nonempty all stops noFraction =>
    simp only [numberLexeme, takeWhile_of_stops all stops, dropWhile_of_stops all stops]
    split
    · rename_i c rest
      have none := stops_cons.mp (noFraction _ rfl)
      simp [none]
    · rfl
  | @fraction whole places following nonempty all some others stops =>
    have point : Stops isDigit ('.' :: (places ++ following)) := stops_cons.mpr (by decide)
    obtain ⟨c, rest, rfl⟩ := List.exists_cons_of_ne_nil some
    have first := others c List.mem_cons_self
    have taken := takeWhile_of_stops others stops
    rw [List.append_assoc, List.cons_append]
    simp only [numberLexeme, takeWhile_of_stops all point, dropWhile_of_stops all point]
    rw [List.cons_append] at taken ⊢
    simp only [first, if_true, taken]

theorem digits_numberLexeme {c : Char} (digit : isDigit c = true) (rest : List Char) :
    ∃ following, c :: rest = numberLexeme (c :: rest) ++ following ∧
      Digits (numberLexeme (c :: rest)) following := by
  have whole := List.takeWhile_append_dropWhile (p := isDigit) (l := c :: rest)
  have all : ∀ d ∈ (c :: rest).takeWhile isDigit, isDigit d = true := fun d member =>
    List.all_eq_true.mp List.all_takeWhile d member
  have nonempty : (c :: rest).takeWhile isDigit ≠ [] := by simp [digit]
  have stops := stops_dropWhile isDigit (c :: rest)
  rw [numberLexeme]
  split
  · rename_i d behind left
    rw [left] at whole
    by_cases fraction : isDigit d = true
    · simp only [fraction, if_true]
      refine ⟨(d :: behind).dropWhile isDigit, ?_, .fraction nonempty all (by simp [fraction])
        (fun e member => List.all_eq_true.mp List.all_takeWhile e member) (stops_dropWhile _ _)⟩
      rw [List.append_assoc, List.cons_append, List.takeWhile_append_dropWhile, whole]
    · simp only [fraction]
      refine ⟨'.' :: d :: behind, whole.symm, .whole nonempty all (left ▸ stops) ?_⟩
      intro rest same
      cases same
      exact stops_cons.mpr (by simpa using fraction)
  · rename_i noFraction
    refine ⟨(c :: rest).dropWhile isDigit, whole.symm, .whole nonempty all stops ?_⟩
    intro rest same
    cases rest with
    | nil => exact stops_nil
    | cons d behind => exact (noFraction d behind same).elim

theorem Digits.nonempty {lexeme following : List Char} (digits : Digits lexeme following) :
    lexeme ≠ [] := by
  cases digits with
  | whole nonempty => exact nonempty
  | fraction nonempty => simp

/-- The first character of a number is a digit. -/
theorem Digits.head {c : Char} {rest following : List Char}
    (digits : Digits (c :: rest) following) : isDigit c = true := by
  generalize same : c :: rest = lexeme at digits
  cases digits with
  | whole nonempty all => exact all c (same ▸ List.mem_cons_self)
  | @fraction whole places following nonempty all =>
    obtain ⟨d, more, rfl⟩ := List.exists_cons_of_ne_nil nonempty
    cases same
    exact all c List.mem_cons_self

theorem point_notMem {digits : List Char} (all : ∀ c ∈ digits, isDigit c = true) :
    '.' ∉ digits := by
  intro member
  have digit := all '.' member
  revert digit
  decide

theorem undenoting_whole_iff {digits : List Char} (all : ∀ c ∈ digits, isDigit c = true) :
    Undenoting digits ↔
      ¬ (digits.all isDecimal = true ∧ digits.length ≤ Numeral.maxDigits) := by
  have point := point_notMem all
  have different : ∀ c ∈ digits, c ≠ '.' := fun c member same => point (same ▸ member)
  rw [Undenoting, not_and_or, Bool.not_eq_true, List.all_eq_false, Nat.not_le]
  refine or_congr (exists_congr fun c => and_congr_right fun member => ?_) (and_iff_right point)
  simp [different c member]

theorem undenoting_fraction_iff {digits places : List Char}
    (all : ∀ c ∈ digits, isDigit c = true) (others : ∀ c ∈ places, isDigit c = true) :
    Undenoting (digits ++ '.' :: places) ↔ ¬ (digits ++ places).all isDecimal = true := by
  have different : ∀ c ∈ digits ++ places, c ≠ '.' := by
    rintro c member rfl
    exact (List.mem_append.mp member).elim (point_notMem all) (point_notMem others)
  rw [Undenoting, Bool.not_eq_true, List.all_eq_false]
  constructor
  · rintro (⟨c, member, noPoint, undecimal⟩ | ⟨none, -⟩)
    · refine ⟨c, ?_, by simpa using undecimal⟩
      simpa [noPoint] using member
    · exact absurd (by simp) none
  · rintro ⟨c, member, undecimal⟩
    refine .inl ⟨c, ?_, different c member, by simpa using undecimal⟩
    simpa [different c member] using member

/-- The characters of a number denote none exactly if a digit is not decimal or if there are too
many digits without a fraction. -/
theorem numberOf_eq_error_iff {lexeme following : List Char} (digits : Digits lexeme following)
    {reason : Fault} :
    numberOf lexeme = .error reason ↔ reason = .notNumeral ∧ Undenoting lexeme := by
  cases digits with
  | whole nonempty all stops noFraction =>
    have point : lexeme.contains '.' = false := by simpa using point_notMem all
    rw [numberOf, point, Numeral.integer?_digits nonempty all, undenoting_whole_iff all]
    by_cases denotes : lexeme.all isDecimal = true ∧ lexeme.length ≤ Numeral.maxDigits
    · simp [denotes]
    · rw [if_neg denotes]
      exact ⟨fun failed => ⟨(Except.error.inj failed).symm, denotes⟩, fun ⟨same, _⟩ => same ▸ rfl⟩
  | @fraction whole places following nonempty all some others stops =>
    have point : (whole ++ '.' :: places).contains '.' = true := by simp
    rw [numberOf, point, Numeral.real?_digits nonempty all others,
      undenoting_fraction_iff all others]
    by_cases denotes : (whole ++ places).all isDecimal = true
    · simp [denotes]
    · rw [if_neg denotes]
      exact ⟨fun failed => ⟨(Except.error.inj failed).symm, denotes⟩, fun ⟨same, _⟩ => same ▸ rfl⟩

/-! ### Symbols -/

/-- No symbol stands before one that it begins. -/
theorem symbols_pairwise : symbols.Pairwise fun entry other => ¬ entry.1 <+: other.1 := by
  decide

/-- The first symbol of the table that a text begins with is the longest one. -/
theorem find?_symbols_iff {text : List Char} {entry : List Char × Token} :
    symbols.find? (fun entry => entry.1.isPrefixOf text) = some entry ↔
      entry ∈ symbols ∧ entry.1 <+: text ∧
        ∀ other ∈ symbols, other.1 <+: text → other.1.length ≤ entry.1.length := by
  have ordered := symbols_pairwise
  constructor
  · intro found
    obtain ⟨begins, before, behind, all, none⟩ := List.find?_eq_some_iff_append.mp found
    have begins := List.isPrefixOf_iff_prefix.mp begins
    refine ⟨all ▸ by simp, begins, fun other member also => ?_⟩
    rw [all] at member ordered
    rcases List.mem_append.mp member with earlier | later
    · have noPrefix := none other earlier
      rw [List.isPrefixOf_iff_prefix.mpr also] at noPrefix
      cases noPrefix
    · rcases List.mem_cons.mp later with rfl | later
      · exact Nat.le_refl _
      · have apart := List.rel_of_pairwise_cons (List.pairwise_append.mp ordered).2.1 later
        exact Nat.le_of_not_lt fun shorter =>
          apart (List.prefix_of_prefix_length_le begins also (Nat.le_of_lt shorter))
  · rintro ⟨member, begins, longest⟩
    have found := List.find?_isSome (p := fun entry => entry.1.isPrefixOf text) |>.mpr
      ⟨entry, member, List.isPrefixOf_iff_prefix.mpr begins⟩
    obtain ⟨other, found⟩ := Option.isSome_iff_exists.mp found
    obtain ⟨also, before, behind, all, none⟩ := List.find?_eq_some_iff_append.mp found
    have also := List.isPrefixOf_iff_prefix.mp also
    have shorter := longest other (all ▸ by simp) also
    rw [found]
    rw [all] at member ordered
    rcases List.mem_append.mp member with earlier | later
    · have noPrefix := none entry earlier
      rw [List.isPrefixOf_iff_prefix.mpr begins] at noPrefix
      cases noPrefix
    · rcases List.mem_cons.mp later with rfl | later
      · rfl
      · exact absurd (List.prefix_of_prefix_length_le also begins shorter)
          (List.rel_of_pairwise_cons (List.pairwise_append.mp ordered).2.1 later)

/-- The symbol that a text begins with is the first one of the table. -/
theorem symbol?_eq_find? (text : List Char) :
    symbol? text =
      (symbols.find? fun entry => entry.1.isPrefixOf text).map fun entry =>
        (entry.2, entry.1.length) := by
  rw [symbols, List.find?_append, List.find?_map, symbol?.eq_def]
  simp only [Function.comp_def]
  generalize Operator.all.find? (fun operator => operator.text.toList.isPrefixOf text) = operator?
  cases operator? with
  | some operator => simp [String.length_toList]
  | none =>
    simp only [Option.map_none, Option.none_or]
    split
    · simp
    · simp
    · rename_i c rest noAnd noOr
      unfold single?
      split
      case h_8 =>
        symm
        refine Option.map_eq_none_iff.mpr (List.find?_eq_none.mpr ?_)
        simp only [List.forall_mem_cons, List.isPrefixOf_iff_prefix, List.cons_prefix_cons]
        refine ⟨fun ⟨is, tail, same⟩ => noAnd tail is.symm same.symm,
          fun ⟨is, tail, same⟩ => noOr tail is.symm same.symm, ?_⟩
        grind
      all_goals simp
    · rfl

/-- A text begins with a symbol exactly if that is the longest one that it begins with. -/
theorem symbol?_eq_some_iff {text : List Char} {token : Token} {count : Nat} :
    symbol? text = some (token, count) ↔
      ∃ characters following, text = characters ++ following ∧ count = characters.length ∧
        (characters, token) ∈ symbols ∧
        ∀ other ∈ symbols, other.1 <+: text → other.1.length ≤ characters.length := by
  rw [symbol?_eq_find?]
  constructor
  · intro found
    obtain ⟨⟨characters, token⟩, first, same⟩ := Option.map_eq_some_iff.mp found
    cases same
    obtain ⟨member, ⟨following, rfl⟩, longest⟩ := find?_symbols_iff.mp first
    exact ⟨characters, following, rfl, rfl, member, longest⟩
  · rintro ⟨characters, following, rfl, rfl, member, longest⟩
    rw [find?_symbols_iff.mpr ⟨member, ⟨following, rfl⟩, longest⟩]
    rfl

/-- A symbol begins with a character of no other token. -/
theorem symbols_head :
    ∀ entry ∈ symbols, ∃ c rest, entry.1 = c :: rest ∧ (c ≠ '\'' ∧ c ≠ '"') ∧
      isWordStart c = false ∧ isWordChar c = false ∧ isDigit c = false ∧ isBlank c = false := by
  have all : symbols.all (fun entry => entry.1.head?.any fun c => c ≠ '\'' && c ≠ '"' &&
      !isWordStart c && !isWordChar c && !isDigit c && !isBlank c) := by
    decide
  intro entry member
  have begins := List.all_eq_true.mp all entry member
  cases text : entry.1 with
  | nil => simp [text] at begins
  | cons c rest =>
    refine ⟨c, rest, rfl, ?_⟩
    simpa [text, and_assoc] using begins

/-! ### Tokens -/

theorem isWordChar_of_isDigit {c : Char} (digit : isDigit c = true) : isWordChar c = true := by
  simp [isWordChar, isAlphanumeric, digit]

theorem isWordStart_of_quote {c : Char} (quote : c = '\'' ∨ c = '"') :
    isWordStart c = false ∧ isWordChar c = false ∧ isDigit c = false ∧ isBlank c = false := by
  rcases quote with rfl | rfl <;> decide

/-- Where a digit begins no word, a number stands that no word begins either. -/
theorem exists_digits {afterDot : Bool} {c : Char} (digit : isDigit c = true)
    (noWord : ¬ (isWordStart c || afterDot && isWordChar c) = true) (rest : List Char) :
    afterDot = false ∧ Stops isWordStart (numberLexeme (c :: rest)) ∧ ∃ following,
      c :: rest = numberLexeme (c :: rest) ++ following ∧
        Digits (numberLexeme (c :: rest)) following := by
  obtain ⟨following, text, digits⟩ := digits_numberLexeme digit rest
  obtain ⟨noStart, apart⟩ : isWordStart c = false ∧ afterDot = false := by
    simpa [isWordChar_of_isDigit digit] using noWord
  refine ⟨apart, ?_, following, text, digits⟩
  obtain ⟨d, more, same⟩ := List.exists_cons_of_ne_nil digits.nonempty
  rw [same] at text ⊢
  cases text
  exact stops_cons.mpr noStart

/-- Digits that no word begins with are read as the number that they denote. -/
theorem first_of_digits {c : Char} {rest lexeme following : List Char}
    (text : c :: rest = lexeme ++ following) (noWord : Stops isWordStart lexeme)
    (digits : Digits lexeme following) :
    first false c rest = match numberOf lexeme with
      | .ok value => .ok (.number value, lexeme.length)
      | .error reason => .error (.fault reason) := by
  obtain ⟨d, more, rfl⟩ := List.exists_cons_of_ne_nil digits.nonempty
  obtain rfl : c = d := by simpa using (List.cons.inj text).1
  have digit := digits.head
  have noQuote : ¬ (c = '\'' ∨ c = '"') := fun quote => by
    simp [isWordStart_of_quote quote] at digit
  have noStart : isWordStart c = false := stops_cons.mp noWord
  have spelled : numberLexeme (c :: rest) = c :: more := text ▸ numberLexeme_of_digits digits
  cases denoted : numberOf (c :: more) <;>
    simp only [first, noQuote, noStart, digit, spelled, denoted, if_true, if_false, Bool.false_and,
      Bool.or_false, Bool.false_eq_true]

/-- The token that a text begins with is the one that its first characters spell. -/
theorem first_eq_ok_iff {afterDot : Bool} {c : Char} {rest : List Char} {token : Token}
    {count : Nat} :
    first afterDot c rest = .ok (token, count) ↔
      ∃ characters following, c :: rest = characters ++ following ∧ count = characters.length ∧
        Spells afterDot token characters following := by
  constructor
  · intro read
    rw [first] at read
    split at read
    · rename_i quote
      split at read
      · rename_i value length body
        cases read
        obtain ⟨inside, following, rfl, rfl, quoted⟩ := quoted_of_stringBody body
        refine ⟨c :: (inside ++ [c]), following, by simp, by simp, .string quote quoted⟩
      · cases read
    · split at read
      · rename_i begins
        cases read
        refine ⟨c :: rest.takeWhile isWordChar, rest.dropWhile isWordChar, ?_, rfl, .word ?_ ?_ ?_⟩
        · simp
        · simpa using begins
        · exact fun d member => List.all_eq_true.mp List.all_takeWhile d member
        · exact stops_dropWhile isWordChar rest
      · rename_i noWord
        split at read
        · rename_i digit
          simp only at read
          split at read
          · rename_i value denotes
            cases read
            obtain ⟨apart, noStart, following, text, digits⟩ := exists_digits digit noWord rest
            exact ⟨_, following, text, rfl, .number apart noStart digits denotes⟩
          · cases read
        · split at read
          · rename_i found symbol
            cases read
            obtain ⟨characters, following, text, length, member, longest⟩ :=
              symbol?_eq_some_iff.mp symbol
            exact ⟨characters, following, text, length, .symbol member (text ▸ longest)⟩
          · cases read
  · rintro ⟨characters, following, text, rfl, spells⟩
    cases spells with
    | string isQuote quoted =>
      obtain ⟨rfl, rfl⟩ := List.cons.inj (List.cons_append ▸ text)
      have noEscape : c ≠ '\\' := by rcases isQuote with rfl | rfl <;> decide
      rw [first, if_pos isQuote, List.append_assoc, List.singleton_append,
        stringBody_of_quoted noEscape quoted]
      simp
    | word begins all stops =>
      obtain ⟨rfl, rfl⟩ := List.cons.inj (List.cons_append ▸ text)
      have noQuote : ¬ (c = '\'' ∨ c = '"') := fun quote => by
        simp [isWordStart_of_quote quote] at begins
      rw [first, if_neg noQuote, if_pos (by simpa using begins), takeWhile_of_stops all stops]
    | number apart noWord digits denotes =>
      rw [apart, first_of_digits text noWord digits, denotes]
    | symbol member longest =>
      obtain ⟨d, more, same, noQuote, noStart, noChar, noDigit, -⟩ := symbols_head _ member
      obtain rfl : c = d := by simp_all
      have symbol := symbol?_eq_some_iff.mpr ⟨_, following, rfl, rfl, member, longest⟩
      rw [first, if_neg (by simpa using noQuote), if_neg (by simp [noStart, noChar]),
        if_neg (by simp [noDigit]), text, symbol]

/-- The first token cannot be read for its digits exactly if these denote no number. -/
theorem first_eq_fault_iff {afterDot : Bool} {c : Char} {rest : List Char} {reason : Fault} :
    first afterDot c rest = .error (.fault reason) ↔
      reason = .notNumeral ∧ afterDot = false ∧ ∃ lexeme following,
        c :: rest = lexeme ++ following ∧ Stops isWordStart lexeme ∧ Digits lexeme following ∧
          Undenoting lexeme := by
  constructor
  · intro failed
    rw [first] at failed
    split at failed
    · split at failed <;> cases failed
    · split at failed
      · cases failed
      · rename_i noWord
        split at failed
        · rename_i digit
          obtain ⟨apart, noStart, following, text, digits⟩ := exists_digits digit noWord rest
          simp only at failed
          split at failed
          · cases failed
          · rename_i other denotes
            cases failed
            obtain ⟨is, undenoting⟩ := (numberOf_eq_error_iff digits).mp denotes
            exact ⟨is, apart, _, following, text, noStart, digits, undenoting⟩
        · split at failed <;> cases failed
  · rintro ⟨rfl, rfl, lexeme, following, text, noWord, digits, undenoting⟩
    rw [first_of_digits text noWord digits, (numberOf_eq_error_iff digits).mpr ⟨rfl, undenoting⟩]

theorem isWordStart_of_isBlank {c : Char} (blank : isBlank c = true) :
    isWordStart c = false ∧ isWordChar c = false := by
  have noMark : c ≠ '_' ∧ c ≠ '$' := by
    constructor <;> (rintro rfl; revert blank; decide)
  simp [isWordStart, isWordChar, isLetter_of_isBlank c blank, isAlphanumeric_of_isBlank blank,
    noMark]

/-- What spells a token begins with a character that is no blank. -/
theorem Spells.head {afterDot : Bool} {token : Token} {characters following : List Char}
    (spells : Spells afterDot token characters following) :
    ∃ c rest, characters = c :: rest ∧ isBlank c = false := by
  cases spells with
  | string isQuote quoted => exact ⟨_, _, rfl, (isWordStart_of_quote isQuote).2.2.2⟩
  | @word c rest _ begins all stops =>
    refine ⟨c, rest, rfl, Bool.eq_false_iff.mpr fun blank => ?_⟩
    simp [isWordStart_of_isBlank blank] at begins
  | number apart noWord digits denotes =>
    obtain ⟨c, rest, rfl⟩ := List.exists_cons_of_ne_nil digits.nonempty
    refine ⟨c, rest, rfl, Bool.eq_false_iff.mpr fun blank => ?_⟩
    exact absurd digits.head (by simp [isDigit_of_isBlank c blank])
  | symbol member longest =>
    obtain ⟨c, rest, same, -, -, -, -, noBlank⟩ := symbols_head _ member
    exact ⟨c, rest, same, noBlank⟩

/-! ### Texts -/

section

variable {afterDot : Bool} {c : Char} {rest : List Char} {tokens : List Token}

theorem lexed_cons_of_blank (blank : isBlank c = true) :
    Lexed afterDot (c :: rest) tokens ↔ Lexed afterDot rest tokens := by
  refine ⟨fun lexed => ?_, .blank blank⟩
  generalize text : c :: rest = whole at lexed
  cases lexed with
  | done => cases text
  | blank _ behind => cases text; exact behind
  | token spells behind =>
    obtain ⟨d, more, rfl, noBlank⟩ := spells.head
    cases text
    rw [blank] at noBlank
    cases noBlank

theorem misnumbered_cons_of_blank (blank : isBlank c = true) :
    Misnumbered afterDot (c :: rest) ↔ Misnumbered afterDot rest := by
  refine ⟨fun misnumbered => ?_, .blank blank⟩
  generalize text : c :: rest = whole at misnumbered
  cases misnumbered with
  | here noWord digits undenoting =>
    obtain ⟨d, more, rfl⟩ := List.exists_cons_of_ne_nil digits.nonempty
    cases text
    exact absurd digits.head (by simp [isDigit_of_isBlank c blank])
  | blank _ behind => cases text; exact behind
  | token spells behind =>
    obtain ⟨d, more, rfl, noBlank⟩ := spells.head
    cases text
    rw [blank] at noBlank
    cases noBlank

/-- What is left of a text behind its first characters. -/
theorem drop_of_cons {characters following : List Char} (text : c :: rest = characters ++ following)
    (nonempty : characters ≠ []) : rest.drop (characters.length - 1) = following := by
  obtain ⟨d, more, rfl⟩ := List.exists_cons_of_ne_nil nonempty
  cases text
  simp

theorem Spells.nonempty {token : Token} {characters following : List Char}
    (spells : Spells afterDot token characters following) : characters ≠ [] := by
  obtain ⟨c, rest, rfl, -⟩ := spells.head
  exact List.cons_ne_nil c rest

theorem lexed_nil_iff : Lexed afterDot [] tokens ↔ tokens = [] := by
  refine ⟨fun lexed => ?_, fun none => none ▸ .done⟩
  generalize text : [] = whole at lexed
  cases lexed with
  | done => rfl
  | blank => cases text
  | token spells behind => exact absurd (List.append_eq_nil_iff.mp text.symm).1 spells.nonempty

theorem not_misnumbered_nil : ¬ Misnumbered afterDot [] := by
  intro misnumbered
  generalize text : [] = whole at misnumbered
  cases misnumbered with
  | here noWord digits undenoting =>
    exact digits.nonempty (List.append_eq_nil_iff.mp text.symm).1
  | blank => cases text
  | token spells behind => exact spells.nonempty (List.append_eq_nil_iff.mp text.symm).1

variable (filled : isBlank c = false)
include filled

theorem lexed_cons_iff :
    Lexed afterDot (c :: rest) tokens ↔
      ∃ token count more, first afterDot c rest = .ok (token, count) ∧ tokens = token :: more ∧
        Lexed (token = .dot) (rest.drop (count - 1)) more := by
  constructor
  · intro lexed
    generalize text : c :: rest = whole at lexed
    cases lexed with
    | done => cases text
    | blank blank =>
      cases text
      rw [filled] at blank
      cases blank
    | @token _ token characters following more spells behind =>
      refine ⟨token, characters.length, more,
        first_eq_ok_iff.mpr ⟨characters, following, text, rfl, spells⟩, rfl, ?_⟩
      rwa [drop_of_cons text spells.nonempty]
  · rintro ⟨token, count, more, read, rfl, behind⟩
    obtain ⟨characters, following, text, rfl, spells⟩ := first_eq_ok_iff.mp read
    rw [drop_of_cons text spells.nonempty] at behind
    exact text ▸ .token spells behind

theorem misnumbered_cons_iff :
    Misnumbered afterDot (c :: rest) ↔ first afterDot c rest = .error (.fault .notNumeral) ∨
      ∃ token count, first afterDot c rest = .ok (token, count) ∧
        Misnumbered (token = .dot) (rest.drop (count - 1)) := by
  constructor
  · intro misnumbered
    generalize text : c :: rest = whole at misnumbered
    cases misnumbered with
    | @here lexeme following noWord digits undenoting =>
      exact .inl (first_eq_fault_iff.mpr
        ⟨rfl, rfl, lexeme, following, text, noWord, digits, undenoting⟩)
    | blank blank =>
      cases text
      rw [filled] at blank
      cases blank
    | @token _ token characters following spells behind =>
      refine .inr ⟨token, characters.length,
        first_eq_ok_iff.mpr ⟨characters, following, text, rfl, spells⟩, ?_⟩
      rwa [drop_of_cons text spells.nonempty]
  · rintro (failed | ⟨token, count, read, behind⟩)
    · obtain ⟨-, rfl, lexeme, following, text, noWord, digits, undenoting⟩ :=
        first_eq_fault_iff.mp failed
      exact text ▸ .here noWord digits undenoting
    · obtain ⟨characters, following, text, rfl, spells⟩ := first_eq_ok_iff.mp read
      rw [drop_of_cons text spells.nonempty] at behind
      exact text ▸ .token spells behind

end

/-- The tokens of the lexemes of a text are those that it spells. -/
theorem lexemesFrom_eq_ok_iff (position : Nat) {afterDot : Bool} {text : List Char}
    {tokens : List Token} :
    (∃ found, lexemesFrom position afterDot text = .ok found ∧ found.map Lexeme.token = tokens) ↔
      Lexed afterDot text tokens := by
  induction position, afterDot, text using lexemesFrom.induct generalizing tokens with
  | case1 position afterDot => simp [lexemesFrom, lexed_nil_iff, eq_comm]
  | case2 position afterDot c rest blank ih =>
    rw [lexemesFrom, if_pos blank, lexed_cons_of_blank blank]
    exact ih
  | case3 position afterDot c rest filled stop stopped =>
    rw [lexemesFrom, if_neg filled, stopped, lexed_cons_iff (by simpa using filled), stopped]
    simp
  | case4 position afterDot c rest filled token count begins stop stopped ih =>
    rw [lexemesFrom, if_neg filled, begins, lexed_cons_iff (by simpa using filled), begins]
    simp [stopped, ← ih]
  | case5 position afterDot c rest filled token count begins more read ih =>
    rw [lexemesFrom, if_neg filled, begins, lexed_cons_iff (by simpa using filled), begins]
    simp only [read, Except.ok.injEq, exists_eq_left', Prod.mk.injEq] at ih ⊢
    constructor
    · rintro rfl
      exact ⟨token, count, more.map Lexeme.token, ⟨rfl, rfl⟩, rfl, ih.mp rfl⟩
    · rintro ⟨_, _, tokens, ⟨rfl, rfl⟩, rfl, behind⟩
      rw [List.map_cons, ih.mpr behind]

/-- Digits of a text stop the reading exactly if they denote no number. -/
theorem lexemesFrom_eq_fault_iff (position : Nat) {afterDot : Bool} {text : List Char} :
    (∃ place, lexemesFrom position afterDot text = .error (.fault .notNumeral, place)) ↔
      Misnumbered afterDot text := by
  induction position, afterDot, text using lexemesFrom.induct with
  | case1 position afterDot => simp [lexemesFrom, not_misnumbered_nil]
  | case2 position afterDot c rest blank ih =>
    rw [lexemesFrom, if_pos blank, misnumbered_cons_of_blank blank]
    exact ih
  | case3 position afterDot c rest filled stop stopped =>
    rw [lexemesFrom, if_neg filled, stopped, misnumbered_cons_iff (by simpa using filled), stopped]
    simp
  | case4 position afterDot c rest filled token count begins stop stopped ih =>
    rw [lexemesFrom, if_neg filled, begins, misnumbered_cons_iff (by simpa using filled), begins]
    simp only [stopped] at ih ⊢
    constructor
    · exact fun stops => .inr ⟨token, count, rfl, ih.mp stops⟩
    · rintro (failed | ⟨_, _, same, behind⟩)
      · cases failed
      · cases same
        exact ih.mpr behind
  | case5 position afterDot c rest filled token count begins more read ih =>
    rw [lexemesFrom, if_neg filled, begins, misnumbered_cons_iff (by simpa using filled), begins]
    simp only [read] at ih ⊢
    constructor
    · rintro ⟨_, failed⟩
      cases failed
    · rintro (failed | ⟨_, _, same, behind⟩)
      · cases failed
      · cases same
        cases (ih.mpr behind).choose_spec

end TextGrammar.Condition
