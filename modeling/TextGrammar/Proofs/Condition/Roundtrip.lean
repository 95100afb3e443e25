import TextGrammar.Proofs.Condition.Compiled
import TextGrammar.Proofs.Condition.Writing

/-!
Reading undoes writing. A written tree spells the tokens of a derivation of it wherever nothing
behind it makes a word, a fraction or a sign longer; parentheses keep their operand apart from
everything. Main statement: a text that is written for a tree is read as that tree.
-/

namespace TextGrammar.Condition

open Text Condition.Derivation

/-! ### Texts before others -/

/-- Wherever something fitting comes next, the text spells the tokens. -/
def SpelledBefore (Fits : List Char → Prop) (text : List Char) (tokens : List Token) : Prop :=
  ∀ following more, Fits following → Lexed false following more →
    Lexed false (text ++ following) (tokens ++ more)

/-- Nothing comes next, or a character that makes no word, no number and no sign longer. -/
def Apart (following : List Char) : Prop :=
  ∀ c ∈ following.head?, isWordChar c = false ∧ c ≠ '.' ∧ c ≠ '='

/-- Anything may come next. -/
def Anything (_ : List Char) : Prop := True

theorem apart_nil : Apart [] := by simp [Apart]

theorem apart_cons {c : Char} {rest : List Char}
    (apart : isWordChar c = false ∧ c ≠ '.' ∧ c ≠ '=') : Apart (c :: rest) := by
  simpa [Apart] using apart

/-- Parentheses, blanks and signs of order make nothing longer. -/
theorem apart_sign {c : Char} {rest : List Char} (sign : c ∈ ['(', ')', ' ', '<']) :
    Apart (c :: rest) := by
  have noWord : (['(', ')', ' ', '<'].all fun c => !isWordChar c) = true := by decide
  have apart := List.all_eq_true.mp noWord c sign
  refine apart_cons ⟨by simpa using apart, ?_⟩
  constructor <;> (rintro rfl; revert sign; decide)

theorem apart_append {front following : List Char} (blanks : ∀ c ∈ front, isBlank c = true)
    (apart : Apart following) : Apart (front ++ following) := by
  cases front with
  | nil => exact apart
  | cons c rest =>
    have blank := blanks c List.mem_cons_self
    refine apart_cons ⟨(isWordStart_of_isBlank blank).2, ?_⟩
    constructor <;> (rintro rfl; revert blank; decide)

theorem Apart.stops {following : List Char} (apart : Apart following) :
    Stops isWordChar following := fun c first => (apart c first).1

section

variable {Fits Before : List Char → Prop} {text other : List Char} {tokens others : List Token}

theorem SpelledBefore.append (first : SpelledBefore Before text tokens)
    (second : SpelledBefore Fits other others)
    (joins : ∀ following, Fits following → Before (other ++ following)) :
    SpelledBefore Fits (text ++ other) (tokens ++ others) := by
  intro following more fits lexed
  rw [List.append_assoc, List.append_assoc]
  exact first _ _ (joins following fits) (second following more fits lexed)

theorem spelledBefore_token {token : Token} (noDot : token ≠ .dot)
    (spells : ∀ following, Fits following → Spells false token text following) :
    SpelledBefore Fits text [token] := by
  intro following more fits lexed
  refine .token (spells following fits) ?_
  rwa [decide_eq_false noDot]

theorem spelledBefore_blanks {blanks : List Char} (all : ∀ c ∈ blanks, isBlank c = true) :
    SpelledBefore Fits blanks [] := by
  intro following more fits lexed
  induction blanks with
  | nil => exact lexed
  | cons c rest ih =>
    have others : ∀ d ∈ rest, isBlank d = true := fun d member =>
      all d (List.mem_cons_of_mem c member)
    exact .blank (all c List.mem_cons_self) (ih others)

/-- Blanks around a text change nothing. -/
theorem SpelledBefore.padded {padded : List Char} (spelled : SpelledBefore Apart text tokens)
    (pads : Padded text padded) : SpelledBefore Apart padded tokens := by
  obtain ⟨front, back, frontBlank, backBlank, rfl⟩ := pads
  have behind := spelled.append (spelledBefore_blanks backBlank) fun following =>
    apart_append backBlank
  rw [List.append_nil] at behind
  exact (@spelledBefore_blanks Anything front frontBlank).append behind fun _ _ => trivial

end

/-! ### Tokens -/

/-- A symbol is spelled where what follows makes no other symbol of it. -/
theorem spells_symbol {characters following : List Char} {token : Token}
    (member : (characters, token) ∈ symbols)
    (noLonger : ∀ other ∈ symbols, ∀ c rest, other.1 = characters ++ c :: rest →
      following.head? ≠ some c) : Spells false token characters following := by
  refine .symbol member fun other known begins => Nat.le_of_not_lt fun longer => ?_
  obtain ⟨rest, same⟩ := List.prefix_of_prefix_length_le (List.prefix_append characters following)
    begins (Nat.le_of_lt longer)
  cases rest with
  | nil => simp [← same] at longer
  | cons c rest =>
    rw [← same, List.prefix_append_right_inj] at begins
    obtain ⟨behind, rfl⟩ := begins
    exact noLonger other known c rest same.symm rfl

/-- Only the equality sign makes symbols longer. -/
theorem symbols_longer : ∀ entry ∈ symbols, ∀ other ∈ symbols, entry.1 <+: other.1 →
    (other.1.drop entry.1.length).head?.all (· = '=') = true := by
  decide

theorem spelledBefore_sign {characters : List Char} {token : Token} (noDot : token ≠ .dot)
    (member : (characters, token) ∈ symbols) : SpelledBefore Apart characters [token] := by
  refine spelledBefore_token noDot fun following apart => spells_symbol member ?_
  intro other known c rest longer first
  have equal := symbols_longer _ member other known (longer ▸ List.prefix_append ..)
  simp only [longer, List.drop_left, List.head?_cons, Option.all_some, decide_eq_true_eq] at equal
  exact (apart c first).2.2 equal

section

variable {c : Char} {token : Token} (member : ([c], token) ∈ symbols)
  (alone : ∀ other ∈ symbols, other.1.head? = some c → other.1.length = 1)

include member alone

/-- A symbol that no longer one begins with is spelled before anything. -/
theorem spells_alone (following : List Char) : Spells false token [c] following := by
  refine spells_symbol member ?_
  intro other known d rest longer
  have short := alone other known (by simp [longer])
  simp [longer] at short

theorem spelledBefore_alone (noDot : token ≠ .dot) : SpelledBefore Anything [c] [token] :=
  spelledBefore_token noDot fun following _ => spells_alone member alone following

end

/-- A word is spelled wherever nothing makes it longer. -/
theorem spelledBefore_word {name : String} (begins : name.toList.head?.any isWordStart = true)
    (all : name.toList.all isWordChar = true) :
    SpelledBefore (Stops isWordChar) name.toList [.word name] := by
  refine spelledBefore_token (by simp) fun following stops => ?_
  cases text : name.toList with
  | nil => simp [text] at begins
  | cons c rest =>
    rw [text] at begins all
    have spells := @Spells.word false c rest following (.inl (by simpa using begins))
      (fun d member => List.all_eq_true.mp all d (List.mem_cons_of_mem c member)) stops
    rwa [← text, String.ofList_toList, text] at spells

/-- The words of the language. -/
def keywords : List String :=
  ["and", "or", "not", "context", "true", "True", "false", "False", "null", "undefined", "None"]

theorem spelledBefore_keyword {name : String} (known : name ∈ keywords) :
    SpelledBefore (Stops isWordChar) name.toList [.word name] := by
  have plain : ∀ name ∈ keywords, name.toList.head?.any isWordStart = true ∧
      name.toList.all isWordChar = true := by
    decide
  obtain ⟨begins, all⟩ := plain name known
  exact spelledBefore_word begins all

/-! ### Strings and numbers -/

theorem quoted_of_escaped {quote : Char} {value text : List Char}
    (escaped : Escaped quote value text) : Quoted quote text value := by
  induction escaped with
  | done => exact .done
  | @escaped c value text special behind ih =>
    have itself : unescape c = c := by rcases special with rfl | rfl | rfl <;> rfl
    have quoted := @Quoted.escaped quote c text value ih
    rwa [itself] at quoted
  | plain noQuote noEscape behind ih => exact .plain noQuote noEscape ih

theorem spelledBefore_string {value : String} {text : List Char} (quoted : InQuotes value text) :
    SpelledBefore Anything text [.string value] := by
  obtain ⟨isQuote, escaped⟩ := quoted
  refine spelledBefore_token (by simp) fun following _ => ?_
  have spells := @Spells.string false _ _ _ following isQuote (quoted_of_escaped escaped)
  rwa [String.ofList_toList] at spells

theorem isWordStart_of_mem_toDigits {number : Nat} {c : Char}
    (member : c ∈ Nat.toDigits 10 number) : isWordStart c = false := by
  have bounds := Numeral.toNat_of_mem_toDigits member
  have digits : ∀ value : Fin 10, isWordStart (Char.ofNat (48 + value)) = false := by decide
  have found := digits ⟨c.toNat - 48, by omega⟩
  rwa [Nat.add_sub_cancel' bounds.1, Char.ofNat_toNat] at found

theorem spelledBefore_number {number : Nat} (small : number < 10 ^ Numeral.maxDigits) :
    SpelledBefore Apart (Nat.toDigits 10 number) [.number (.int number)] := by
  refine spelledBefore_token (by simp) fun following apart => ?_
  have digits : ∀ c ∈ Nat.toDigits 10 number, isDigit c = true :=
    fun c => Numeral.isDigit_of_mem_toDigits
  have noWord : Stops isWordStart (Nat.toDigits 10 number) := fun c first =>
    isWordStart_of_mem_toDigits (List.mem_of_mem_head? first)
  have stops : Stops isDigit following := by
    intro c first
    refine Bool.eq_false_iff.mpr fun digit => ?_
    exact absurd (isWordChar_of_isDigit digit) (Bool.eq_false_iff.mp (apart c first).1)
  have noFraction : ∀ rest, following = '.' :: rest → Stops isDigit rest := by
    rintro rest rfl
    exact absurd rfl (apart '.' rfl).2.1
  have point : (Nat.toDigits 10 number).contains '.' = false := by simpa using point_notMem digits
  refine .number rfl noWord (.whole Nat.toDigits_ne_nil digits stops noFraction) ?_
  rw [numberOf, point, Numeral.integer?_toDigits small]
  rfl

/-! ### Operands in parentheses -/

theorem spelledBefore_group {text : List Char} {tokens : List Token}
    (spelled : SpelledBefore Apart text tokens) :
    SpelledBefore Anything (group text) (.openParen :: (tokens ++ [.closeParen])) := by
  have opened : SpelledBefore Anything ['('] [.openParen] :=
    spelledBefore_alone (by decide) (by decide) nofun
  have closed : SpelledBefore Anything [')'] [.closeParen] :=
    spelledBefore_alone (by decide) (by decide) nofun
  refine opened.append (spelled.append closed fun following _ => ?_) fun _ _ => trivial
  exact apart_sign (by decide)

/-- The derivation of a condition in parentheses. -/
def grouped (form : Disjunction) : Negation := .comparison (.operand (.primary (.group form)))

/-- The derivation of a condition without connectives. -/
def alone (negation : Negation) : Disjunction := .mk (.mk negation .none) .none

@[simp] theorem tokens_grouped (form : Disjunction) :
    (grouped form).tokens = .openParen :: (form.tokens ++ [.closeParen]) := by
  simp [grouped, Negation.tokens, Comparison.tokens, Operand.tokens, Primary.tokens]

@[simp] theorem tree_grouped (form : Disjunction) : (grouped form).tree = form.tree := by
  simp [grouped, Negation.tree, Comparison.tree, Operand.tree, Primary.tree]

@[simp] theorem tokens_alone (negation : Negation) : (alone negation).tokens = negation.tokens := by
  simp [alone, Disjunction.tokens, Conjunction.tokens, Disjuncts.tokens, Conjuncts.tokens]

@[simp] theorem tree_alone (negation : Negation) : (alone negation).tree = negation.tree := by
  simp [alone, Disjunction.tree, Conjunction.tree, Disjuncts.trees, Conjuncts.trees,
    Tree.conjunction, Tree.disjunction]

/-! ### Chains -/

/-- The tokens of further operands in parentheses, each behind a sign. -/
def chainTokens (token : Spelling → Token) : List (Spelling × Disjunction) → List Token
  | [] => []
  | (spelling, form) :: rest => token spelling :: ((grouped form).tokens ++ chainTokens token rest)

def conjuncts : List (Spelling × Disjunction) → Conjuncts
  | [] => .none
  | (spelling, form) :: rest => .more spelling (grouped form) (conjuncts rest)

def disjuncts : List (Spelling × Disjunction) → Disjuncts
  | [] => .none
  | (spelling, form) :: rest => .more spelling (.mk (grouped form) .none) (disjuncts rest)

theorem tokens_conjuncts (more : List (Spelling × Disjunction)) :
    (conjuncts more).tokens = chainTokens Spelling.and more := by
  induction more with
  | nil => rfl
  | cons operand rest ih => rw [conjuncts, Conjuncts.tokens, ih]; rfl

theorem trees_conjuncts (more : List (Spelling × Disjunction)) :
    (conjuncts more).trees = more.map fun operand => operand.2.tree := by
  induction more with
  | nil => rfl
  | cons operand rest ih => rw [conjuncts, Conjuncts.trees, ih, tree_grouped]; rfl

theorem tokens_disjuncts (more : List (Spelling × Disjunction)) :
    (disjuncts more).tokens = chainTokens Spelling.or more := by
  induction more with
  | nil => rfl
  | cons operand rest ih =>
    rw [disjuncts, Disjuncts.tokens, ih, Conjunction.tokens, Conjuncts.tokens, List.append_nil]
    rfl

theorem trees_disjuncts (more : List (Spelling × Disjunction)) :
    (disjuncts more).trees = more.map fun operand => operand.2.tree := by
  induction more with
  | nil => rfl
  | cons operand rest ih =>
    rw [disjuncts, Disjuncts.trees, ih, Conjunction.tree, Conjuncts.trees, Tree.conjunction,
      tree_grouped]
    rfl

/-- The tree has a derivation that the text spells before what is apart from it. -/
def Spelled (tree : Tree) (text : List Char) : Prop :=
  ∃ form : Disjunction, form.tree = tree ∧ SpelledBefore Apart text form.tokens

theorem Joined.head {sign : Spelling → List Char} {texts : List (List Char)} {text : List Char}
    (joined : Joined sign texts text) : ∃ rest, text = '(' :: rest := by
  cases joined <;> exact ⟨_, rfl⟩

/-- Operands with signs between them are spelled as a chain. -/
theorem spelledBefore_joined {sign : Spelling → List Char} {token : Spelling → Token}
    (signs : ∀ spelling, SpelledBefore Apart (sign spelling) [token spelling])
    {operands : List (Tree × List Char)} (each : ∀ operand ∈ operands, Spelled operand.1 operand.2)
    {text : List Char} (joined : Joined sign (operands.map Prod.snd) text) :
    ∃ (first : Disjunction) (more : List (Spelling × Disjunction)),
      operands.map Prod.fst = first.tree :: more.map (fun operand => operand.2.tree) ∧
        SpelledBefore Anything text ((grouped first).tokens ++ chainTokens token more) := by
  induction operands generalizing text with
  | nil => cases joined
  | cons operand rest ih =>
    obtain ⟨form, same, spelled⟩ := each operand List.mem_cons_self
    have opened := spelledBefore_group spelled
    generalize others : rest.map Prod.snd = texts at joined
    rw [List.map_cons, others] at joined
    cases joined with
    | last =>
      rw [List.map_eq_nil_iff.mp others]
      exact ⟨form, [], by simp [same], by simpa [chainTokens] using opened⟩
    | @more spelling _ between joined _ padded behind =>
      obtain ⟨first, more, trees, chain⟩ :=
        ih (fun other member => each other (List.mem_cons_of_mem operand member)) (others ▸ behind)
      refine ⟨form, (spelling, first) :: more, by simp [same, trees], ?_⟩
      have joins : ∀ following, Anything following → Apart (joined ++ following) := by
        intro following _
        obtain ⟨tail, rfl⟩ := behind.head
        exact apart_sign (by decide)
      rw [tokens_grouped]
      exact opened.append (((signs spelling).padded padded).append chain joins) fun _ _ => trivial

/-! ### Trees -/

theorem SpelledBefore.of_anything {text : List Char} {tokens : List Token}
    (spelled : SpelledBefore Anything text tokens) : SpelledBefore Apart text tokens :=
  fun following more _ => spelled following more trivial

theorem SpelledBefore.of_stops {text : List Char} {tokens : List Token}
    (spelled : SpelledBefore (Stops isWordChar) text tokens) : SpelledBefore Apart text tokens :=
  fun following more apart => spelled following more apart.stops

theorem spelledBefore_and (spelling : Spelling) :
    SpelledBefore Apart (andSign spelling) [spelling.and] := by
  cases spelling with
  | sign => exact spelledBefore_sign nofun (by decide)
  | word => exact (spelledBefore_keyword (by decide)).of_stops

theorem spelledBefore_or (spelling : Spelling) :
    SpelledBefore Apart (orSign spelling) [spelling.or] := by
  cases spelling with
  | sign => exact spelledBefore_sign nofun (by decide)
  | word => exact (spelledBefore_keyword (by decide)).of_stops

theorem spelledBefore_operator (operator : Operator) :
    SpelledBefore Apart operator.text.toList [.compare operator] :=
  spelledBefore_sign (by simp) (by cases operator <;> decide)

theorem mem_keywords_of_literalWord? {name : String} {value : Scalar}
    (stands : literalWord? name = some value) : name ∈ keywords := by
  rw [literalWord?.eq_def] at stands
  split at stands
  case h_8 => cases stands
  all_goals decide

/-- A negation alone is spelled as its tokens are. -/
theorem spelled_of_negation {text : List Char} (negation : Negation)
    (spelled : SpelledBefore Apart text negation.tokens) : Spelled negation.tree text :=
  ⟨alone negation, tree_alone negation, by rwa [tokens_alone]⟩

/-- A primary operand alone is spelled as its tokens are. -/
theorem spelled_of_primary {text : List Char} (primary : Primary)
    (spelled : SpelledBefore Apart text primary.tokens) : Spelled primary.tree text :=
  spelled_of_negation (.comparison (.operand (.primary primary))) spelled

theorem spelled_bracketed {key : String} {text : List Char} (quoted : InQuotes key text) :
    Spelled (.lookup key) ("context".toList ++ '[' :: (text ++ [']'])) := by
  refine spelled_of_primary (.lookup (.bracketed key)) ?_
  have opened : SpelledBefore Anything ['['] [.openBracket] :=
    spelledBefore_alone (by decide) (by decide) nofun
  have closed : SpelledBefore Anything [']'] [.closeBracket] :=
    spelledBefore_alone (by decide) (by decide) nofun
  have inside := opened.append ((spelledBefore_string quoted).append closed fun _ _ => trivial)
    fun _ _ => trivial
  have word := @spelledBefore_keyword "context" (by decide)
  exact (word.append inside fun following _ => stops_cons.mpr (by decide)).of_anything

/-- Behind a dot every word is a key, those of the language and those that begin with a digit
included. -/
theorem spelled_dotted {key : String} (nonempty : key ≠ "")
    (all : ∀ c ∈ key.toList, isWordChar c = true) :
    Spelled (.lookup key) ("context".toList ++ '.' :: key.toList) := by
  refine spelled_of_primary (.lookup (.dotted key)) ?_
  intro following more apart lexed
  have word := @spelledBefore_keyword "context" (by decide)
  have some : key.toList ≠ [] := by simpa using nonempty
  obtain ⟨c, rest, text⟩ := List.exists_cons_of_ne_nil some
  have behindDot : Spells true (.word key) key.toList following := by
    rw [text] at all ⊢
    have spells := @Spells.word true c rest following
      (.inr ⟨rfl, all c List.mem_cons_self⟩)
      (fun d member => all d (List.mem_cons_of_mem c member)) apart.stops
    rwa [← text, String.ofList_toList, text] at spells
  have dot : Spells false .dot ['.'] (key.toList ++ following) :=
    spells_alone (by decide) (by decide) _
  have keyLexed : Lexed true (key.toList ++ following) (.word key :: more) :=
    .token behindDot lexed
  have dotLexed := Lexed.token dot keyLexed
  rw [List.append_assoc]
  exact word _ _ (stops_cons.mpr (by decide)) dotLexed

theorem spelled_compare {operator : Operator} {left right : Tree}
    {leftText rightText between : List Char} (padded : Padded operator.text.toList between)
    (first : Spelled left leftText) (second : Spelled right rightText) :
    Spelled (.compare operator left right) (group leftText ++ (between ++ group rightText)) := by
  obtain ⟨leftForm, rfl, leftSpelled⟩ := first
  obtain ⟨rightForm, rfl, rightSpelled⟩ := second
  have sign := (spelledBefore_operator operator).padded padded
  have behind := sign.append (spelledBefore_group rightSpelled) fun following _ =>
    apart_sign (by decide)
  have spelled := (spelledBefore_group leftSpelled).append behind fun _ _ => trivial
  let comparison := Comparison.compare (.primary (.group leftForm)) operator
    (.primary (.group rightForm))
  have tree : (Negation.comparison comparison).tree =
      .compare operator leftForm.tree rightForm.tree := by
    simp [comparison, Negation.tree, Comparison.tree, Operand.tree, Primary.tree]
  rw [← tree]
  refine spelled_of_negation _ ?_
  simpa [comparison, Negation.tokens, Comparison.tokens, Operand.tokens, Primary.tokens]
    using spelled.of_anything

theorem spelled_not {spelling : Spelling} {operand : Tree} {text before : List Char}
    (padded : Padded (notSign spelling) before) (behind : Spelled operand text) :
    Spelled (.not operand) (before ++ group text) := by
  obtain ⟨form, rfl, spelled⟩ := behind
  have inside := spelledBefore_group spelled
  have joins : ∀ following, Anything following → Apart (group text ++ following) :=
    fun following _ => apart_sign (by decide)
  cases spelling with
  | sign =>
    have sign : SpelledBefore Apart ['!'] [.bang] := spelledBefore_sign nofun (by decide)
    have tree : (Negation.comparison (.operand (.bang (.primary (.group form))))).tree =
        .not form.tree := by
      simp [Negation.tree, Comparison.tree, Operand.tree, Primary.tree]
    rw [← tree]
    refine spelled_of_negation _ ?_
    simpa [Negation.tokens, Comparison.tokens, Operand.tokens, Primary.tokens]
      using ((sign.padded padded).append inside joins).of_anything
  | word =>
    have word := (@spelledBefore_keyword "not" (by decide)).of_stops
    have tree : (Negation.not (grouped form)).tree = .not form.tree := by
      rw [Negation.tree, tree_grouped]
    rw [← tree]
    refine spelled_of_negation _ ?_
    simpa [Negation.tokens] using ((word.padded padded).append inside joins).of_anything

section

variable {operands : List (Tree × List Char)} {text : List Char} (several : 2 ≤ operands.length)
  (each : ∀ operand ∈ operands, Spelled operand.1 operand.2)

include several each

/-- Two operands or more are spelled as a chain that goes on behind the first. -/
theorem spelledBefore_several {sign : Spelling → List Char} {token : Spelling → Token}
    (signs : ∀ spelling, SpelledBefore Apart (sign spelling) [token spelling])
    (joined : Joined sign (operands.map Prod.snd) text) :
    ∃ (first : Disjunction) (next : Spelling × Disjunction)
        (rest : List (Spelling × Disjunction)),
      operands.map Prod.fst = first.tree :: (next :: rest).map (fun operand => operand.2.tree) ∧
        SpelledBefore Anything text
          ((grouped first).tokens ++ chainTokens token (next :: rest)) := by
  obtain ⟨first, more, trees, spelled⟩ := spelledBefore_joined signs each joined
  cases more with
  | nil =>
    have single := congrArg List.length trees
    simp only [List.length_map, List.length_cons, List.map_nil, List.length_nil] at single
    omega
  | cons next rest => exact ⟨first, next, rest, trees, spelled⟩

theorem spelled_all (joined : Joined andSign (operands.map Prod.snd) text) :
    Spelled (.all (operands.map Prod.fst)) text := by
  obtain ⟨first, next, rest, trees, spelled⟩ :=
    spelledBefore_several several each spelledBefore_and joined
  refine ⟨.mk (.mk (grouped first) (conjuncts (next :: rest))) .none, ?_, ?_⟩
  · rw [trees, Disjunction.tree, Conjunction.tree, trees_conjuncts, tree_grouped]
    rfl
  · rw [Disjunction.tokens, Conjunction.tokens, tokens_conjuncts, Disjuncts.tokens, List.append_nil]
    exact spelled.of_anything

theorem spelled_any (joined : Joined orSign (operands.map Prod.snd) text) :
    Spelled (.any (operands.map Prod.fst)) text := by
  obtain ⟨first, next, rest, trees, spelled⟩ :=
    spelledBefore_several several each spelledBefore_or joined
  refine ⟨.mk (.mk (grouped first) .none) (disjuncts (next :: rest)), ?_, ?_⟩
  · rw [trees, Disjunction.tree, Conjunction.tree, Conjuncts.trees, trees_disjuncts,
      Tree.conjunction, tree_grouped]
    rfl
  · rw [Disjunction.tokens, Conjunction.tokens, Conjuncts.tokens, tokens_disjuncts, List.append_nil]
    exact spelled.of_anything

end

/-- A written tree is spelled by its text. -/
theorem Writes.spelled {tree : Tree} {text : List Char} (writes : Writes tree text) :
    Spelled tree text := by
  induction writes with
  | @word name value stands =>
    have known := mem_keywords_of_literalWord? stands
    exact spelled_of_primary (.literal name value stands) (spelledBefore_keyword known).of_stops
  | @string value text quoted =>
    exact spelled_of_primary (.string value) (spelledBefore_string quoted).of_anything
  | @natural number small =>
    exact spelled_of_primary (.number (.int number)) (spelledBefore_number small)
  | @negative number small =>
    have minus : SpelledBefore Anything ['-'] [.minus] :=
      spelledBefore_alone (by decide) (by decide) nofun
    exact spelled_of_negation (.comparison (.operand (.minus (.int number))))
      (minus.append (spelledBefore_number small) fun _ _ => trivial)
  | bracketed quoted => exact spelled_bracketed quoted
  | dotted nonempty all => exact spelled_dotted nonempty all
  | compare padded _ _ first second => exact spelled_compare padded first second
  | not padded _ behind => exact spelled_not padded behind
  | all several _ joined each => exact spelled_all several each joined
  | any several _ joined each => exact spelled_any several each joined
  | padded pads _ inside =>
    obtain ⟨form, rfl, spelled⟩ := inside
    exact ⟨form, rfl, spelled.padded pads⟩

/-- The trees of texts, integers of few enough digits, booleans and null, whose connectives have at
least two operands, can be written; whatever is written for a tree is read as that tree. -/
theorem read_written (tree : Tree) :
    (Expressible tree → ∃ text, Writes tree text) ∧
      ∀ text, Writes tree text → read (String.ofList text) = .ok tree := by
  refine ⟨Expressible.exists_text, fun text writes => ?_⟩
  obtain ⟨form, rfl, spelled⟩ := writes.spelled
  have lexed := spelled [] [] apart_nil .done
  rw [List.append_nil, List.append_nil] at lexed
  refine read_eq_ok_iff.mpr ⟨form.tokens, ?_, form, rfl, rfl⟩
  rwa [String.toList_ofList]

/-- Two connectives over a key that begins with a digit, a negative integer and a key with a quote
in it. -/
theorem read_written_nested :
    let tree : Tree := .all [.compare .less (.lookup "2nd") (.literal (.number (.int (-5)))),
      .any [.literal .null, .not (.lookup "it's")]]
    Expressible tree ∧ (∃ text, Writes tree text) ∧
      read "((context.2nd) < (-5)) && ((null) or (!(context['it\\'s'])))" = .ok tree := by
  intro tree
  have spaced : ∀ sign, Padded sign (' ' :: (sign ++ [' '])) := fun sign =>
    have blanks : ∀ c ∈ [' '], isBlank c = true := List.forall_mem_singleton.mpr (by decide)
    ⟨[' '], [' '], blanks, blanks, rfl⟩
  have few : 5 < 10 ^ Numeral.maxDigits :=
    Nat.lt_of_lt_of_le (by decide : 5 < 10 ^ 1) (Nat.pow_le_pow_right (by decide) (by decide))
  have second : Writes (.lookup "2nd") ("context".toList ++ '.' :: "2nd".toList) :=
    .dotted (by decide) (List.all_eq_true.mp (by decide))
  have less := Writes.compare (spaced Operator.less.text.toList) second (.negative few)
  have quoted : InQuotes "it's" _ := .quotes (.inl rfl)
    (.plain (by decide) (by decide) (.plain (by decide) (by decide) (.escaped (.inl rfl)
      (.plain (by decide) (by decide) .done))))
  have negated := Writes.not (padded_self (notSign .sign)) (.bracketed quoted)
  have null := @Writes.word "null" .null rfl
  have either := @Writes.any [(_, _), (_, _)] _ (by decide)
    (List.forall_mem_cons.mpr ⟨null, List.forall_mem_singleton.mpr negated⟩)
    (.more (spaced (orSign .word)) .last)
  have both := @Writes.all [(_, _), (_, _)] _ (by decide)
    (List.forall_mem_cons.mpr ⟨less, List.forall_mem_singleton.mpr either⟩)
    (.more (spaced (andSign .sign)) .last)
  obtain ⟨exists_text, reads⟩ := read_written tree
  exact ⟨both.expressible, exists_text both.expressible, reads _ both⟩

end TextGrammar.Condition
