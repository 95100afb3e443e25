import TextGrammar.Proofs.Condition.Evaluation
import TextGrammar.Proofs.Condition.Roundtrip

/-!
Conditions and their negations. Main statement: in a context of texts the negation of a condition
holds exactly where the condition does not, unless the evaluation overflows; then neither holds.
-/

namespace TextGrammar

namespace Condition

open Text Condition.Derivation

/-! ### Texts in parentheses -/

theorem stops_append {inClass : Char → Bool} {front back : List Char} (first : Stops inClass front)
    (second : Stops inClass back) : Stops inClass (front ++ back) := by
  cases front with
  | nil => exact second
  | cons c rest => exact stops_cons.mpr (stops_cons.mp first)

/-- A symbol that can be made longer is made longer by one equality sign. -/
theorem symbols_extended : ∀ entry ∈ symbols, ∀ other ∈ symbols, entry.1 <+: other.1 →
    entry.1.length < other.1.length →
      entry.1 ++ ['='] <+: other.1 ∧ ∃ next ∈ symbols, next.1 = entry.1 ++ ['='] := by
  decide

section

variable {afterDot : Bool} {following back : List Char} (apart : Apart back)

include apart

theorem Apart.stops_digit : Stops isDigit back := by
  intro c first
  refine Bool.eq_false_iff.mpr fun digit => ?_
  have word := (apart c first).1
  rw [isWordChar_of_isDigit digit] at word
  cases word

/-- A number stays what it is if something that is apart from it comes behind. -/
theorem Digits.append {lexeme : List Char} (digits : Digits lexeme following) :
    Digits lexeme (following ++ back) := by
  cases digits with
  | whole nonempty all stops noFraction =>
    refine .whole nonempty all (stops_append stops apart.stops_digit) fun rest same => ?_
    cases following with
    | nil =>
      have point := (apart '.' (by simp [show back = '.' :: rest from same])).2.1
      exact absurd rfl point
    | cons c more =>
      obtain ⟨rfl, rfl⟩ := List.cons.inj same
      exact stops_append (noFraction more rfl) apart.stops_digit
  | fraction nonempty all some others stops =>
    exact .fraction nonempty all some others (stops_append stops apart.stops_digit)

/-- A token is spelled as before if something that is apart from it comes behind. -/
theorem Spells.append {token : Token} {characters : List Char}
    (spells : Spells afterDot token characters following) :
    Spells afterDot token characters (following ++ back) := by
  cases spells with
  | string isQuote quoted => exact .string isQuote quoted
  | word begins all stops => exact .word begins all (stops_append stops apart.stops)
  | number noDot noWord digits denotes => exact .number noDot noWord (digits.append apart) denotes
  | symbol member longest =>
    refine .symbol member fun other known begins => Nat.le_of_not_lt fun longer => ?_
    have inside := List.prefix_of_prefix_length_le (List.prefix_append characters _) begins
      (Nat.le_of_lt longer)
    obtain ⟨equality, next, isSymbol, extended⟩ :=
      symbols_extended (characters, token) member other known inside longer
    have behind := (List.prefix_append_right_inj characters).mp (equality.trans begins)
    cases following with
    | nil =>
      obtain ⟨more, rfl⟩ := behind
      exact (apart '=' rfl).2.2 rfl
    | cons c rest =>
      obtain ⟨more, same⟩ := behind
      obtain ⟨rfl, -⟩ := List.cons.inj same
      have fits : next.1 <+: characters ++ '=' :: rest := by
        rw [extended]
        exact ⟨rest, by simp⟩
      have short := longest next isSymbol fits
      simp [extended] at short

/-- Behind a text that spells tokens, something apart from it may spell more of them. -/
theorem Lexed.append {front : List Char} {tokens more : List Token}
    (lexed : Lexed afterDot front tokens) (behind : ∀ afterDot, Lexed afterDot back more) :
    Lexed afterDot (front ++ back) (tokens ++ more) := by
  induction lexed with
  | done => exact behind _
  | blank blank _ ih => exact .blank blank ih
  | token spells _ ih =>
    rw [List.append_assoc]
    exact .token (spells.append apart) ih

end

/-- A condition behind a `!` and in parentheses denotes its negation. -/
theorem Denotes.negated {text : String} {tree : Tree} (denotes : Denotes text tree) :
    Denotes ("!(" ++ text ++ ")") (.not tree) := by
  obtain ⟨tokens, lexed, form, rfl, rfl⟩ := denotes
  have closing (afterDot : Bool) : Lexed afterDot [')'] [.closeParen] := by
    have spells : Spells afterDot .closeParen [')'] [] := .symbol (by decide) (by decide)
    exact .token spells .done
  have opens : Spells false .openParen ['('] (text.toList ++ [')']) :=
    spells_alone (by decide) (by decide) _
  have inside := lexed.append (apart_sign (by decide)) closing
  have sign : SpelledBefore Apart ['!'] [.bang] := spelledBefore_sign nofun (by decide)
  have whole := sign _ _ (apart_sign (by decide)) (Lexed.token opens inside)
  refine ⟨.bang :: .openParen :: (form.tokens ++ [.closeParen]), ?_,
    alone (.comparison (.operand (.bang (.primary (.group form))))), ?_, ?_⟩
  · rw [String.toList_append, String.toList_append]
    exact whole
  · simp [Negation.tokens, Comparison.tokens, Operand.tokens, Primary.tokens]
  · simp [Negation.tree, Comparison.tree, Operand.tree, Primary.tree]

/-! ### Values that count -/

theorem Counts.not {context : Value} {tree : Tree} {truth : Bool}
    (counts : Counts context tree truth) : Counts context (.not tree) (!truth) := by
  obtain ⟨value, evaluated, rfl⟩ := counts
  refine ⟨.bool (!isTrue value), ?_, rfl⟩
  rw [Tree.evaluate, evaluated]
  rfl

/-- What does not overflow has a value, which counts as true or not. -/
theorem exists_counts {fields : Fields} (texts : ∀ entry ∈ fields, ∃ text, entry.2 = .str text)
    {tree : Tree} (fits : ¬ Overflows (.map fields) tree) :
    ∃ truth, Counts (.map fields) tree truth := by
  cases evaluated : tree.evaluate (.map fields) with
  | error reason => exact absurd ((evaluate_eq_error_iff texts tree).mp evaluated).2 fits
  | ok value => exact ⟨_, value, evaluated, rfl⟩

/-! ### Operands that cannot be compared -/

/-- The two values have no order: they are not both texts, and one stands for no number. -/
def Incomparable (x y : Value) : Prop :=
  (∀ first second, ¬ (x = .str first ∧ y = .str second)) ∧
    (magnitude x = .ok .nan ∨ magnitude y = .ok .nan)

theorem order?_of_incomparable {x y : Value} {order : Option Ordering}
    (incomparable : Incomparable x y) (is : order? x y = .ok order) : order = none := by
  obtain ⟨notBoth, noNumber⟩ := incomparable
  unfold order? at is
  split at is
  · rename_i first second
    exact absurd ⟨rfl, rfl⟩ (notBoth first second)
  · obtain ⟨m, left, is⟩ := Effect.bind_eq_ok.mp is
    obtain ⟨n, right, is⟩ := Effect.bind_eq_ok.mp is
    cases is
    rcases noNumber with nan | nan
    · cases left.symm.trans nan
      rfl
    · cases right.symm.trans nan
      cases m <;> rfl

theorem Operator.holds_of_incomparable {operator : Operator} {x y : Value} {truth : Bool}
    (orders : operator.orders) (incomparable : Incomparable x y)
    (holds : operator.holds x y = .ok truth) : truth = false := by
  cases operator with
  | strictEqual | strictUnequal | equal | unequal => cases orders
  | less | atMost | greater | atLeast =>
    obtain ⟨order, is, holds⟩ := Effect.bind_eq_ok.mp holds
    cases order?_of_incomparable incomparable is
    cases holds
    rfl

/-- Such operands make their own comparison false, and nothing else, if it does not overflow. -/
theorem compare_of_incomparable {fields : Fields}
    (texts : ∀ entry ∈ fields, ∃ text, entry.2 = .str text) {operator : Operator}
    {left right : Tree} {x y : Value} (orders : operator.orders)
    (first : left.evaluate (.map fields) = .ok x) (second : right.evaluate (.map fields) = .ok y)
    (incomparable : Incomparable x y)
    (fits : ¬ Overflows (.map fields) (.compare operator left right)) :
    (Tree.compare operator left right).evaluate (.map fields) = .ok (.bool false) := by
  cases evaluated : (Tree.compare operator left right).evaluate (.map fields) with
  | error reason => exact absurd ((evaluate_eq_error_iff texts _).mp evaluated).2 fits
  | ok value =>
    obtain ⟨a, firstIs, evaluated⟩ := Effect.bind_eq_ok.mp evaluated
    obtain ⟨b, secondIs, evaluated⟩ := Effect.bind_eq_ok.mp evaluated
    obtain ⟨truth, holds, same⟩ := Effect.bind_eq_ok.mp evaluated
    cases first.symm.trans firstIs
    cases second.symm.trans secondIs
    cases Operator.holds_of_incomparable orders incomparable holds
    cases same
    rfl

end Condition

namespace Predicate

open Condition

section

variable {fields : Fields} {tree : Tree}

/-- A predicate answers whether the value of its condition counts as true. -/
theorem applies_of_counts {truth : Bool} (counts : Counts (.map fields) tree truth)
    (source : String) : (Predicate.mk source (.ok tree)).applies (.map fields) = truth := by
  obtain ⟨value, evaluated, rfl⟩ := counts
  refine Bool.eq_iff_iff.mpr (applies_iff.trans ⟨?_, fun counts => ?_⟩)
  · rintro ⟨other, given, same, evaluatedTo, counts⟩
    cases same
    cases evaluated.symm.trans evaluatedTo
    exact counts
  · exact ⟨tree, value, rfl, evaluated, counts⟩

variable (texts : ∀ entry ∈ fields, ∃ text, entry.2 = .str text)

include texts

theorem applies_of_overflows (overflows : Overflows (.map fields) tree) (source : String) :
    (Predicate.mk source (.ok tree)).applies (.map fields) = false := by
  refine Bool.eq_false_iff.mpr fun applies => ?_
  obtain ⟨other, value, same, evaluated, -⟩ := applies_iff.mp applies
  cases same
  cases evaluated.symm.trans ((evaluate_eq_error_iff texts tree).mpr ⟨rfl, overflows⟩)

/-- In a context of texts, a condition behind a `!` and in parentheses holds exactly where the
condition does not, and operands that cannot be compared make their own comparison false only;
unless the evaluation overflows, for then neither the condition nor its negation holds. -/
theorem negation_complements {text : String} (denotes : Denotes text tree) :
    ∃ predicate negated, compile text = .ok predicate ∧
      compile ("!(" ++ text ++ ")") = .ok negated ∧
      (¬ Overflows (.map fields) tree →
        (negated.applies (.map fields) = true ↔ predicate.applies (.map fields) = false)) ∧
      (Overflows (.map fields) tree →
        negated.applies (.map fields) = false ∧ predicate.applies (.map fields) = false) ∧
      ∀ (operator : Operator) (left right : Tree) (x y : Value), operator.orders →
        left.evaluate (.map fields) = .ok x → right.evaluate (.map fields) = .ok y →
        Incomparable x y → ¬ Overflows (.map fields) (.compare operator left right) →
          (Tree.compare operator left right).evaluate (.map fields) = .ok (.bool false) := by
  refine ⟨_, _, compile_of_denotes denotes, compile_of_denotes denotes.negated, fun fits => ?_,
    fun overflows => ⟨?_, ?_⟩, fun operator left right x y => compare_of_incomparable texts⟩
  · obtain ⟨truth, counts⟩ := exists_counts texts fits
    rw [applies_of_counts counts, applies_of_counts counts.not, Bool.not_eq_true']
  · exact applies_of_overflows texts (.not overflows) _
  · exact applies_of_overflows texts overflows _

end

theorem denotes_above_five : Denotes "context.level > 5"
    (.compare .greater (.lookup "level") (.literal (.number (.int 5)))) := by
  refine ⟨[.word "context", .dot, .word "level", .compare .greater, .number (.int 5)],
    scan_eq_ok_iff.mp ⟨[⟨.word "context", 0, 7⟩, ⟨.dot, 7, 8⟩, ⟨.word "level", 8, 13⟩,
      ⟨.compare .greater, 14, 15⟩, ⟨.number (.int 5), 16, 17⟩], by cbv, rfl⟩,
    alone (.comparison (.compare (.primary (.lookup (.dotted "level"))) .greater
      (.primary (.number (.int 5))))), rfl, rfl⟩

/-- A level that is no number is not above five, and so the negation of that holds. -/
theorem high_level_is_not_above_five :
    let context : Fields := [(.str "level", .str "high")]
    (∀ entry ∈ context, ∃ text, entry.2 = .str text) ∧
      (∃ tree, Denotes "context.level > 5" tree) ∧
      ∃ predicate negated, compile "context.level > 5" = .ok predicate ∧
        compile "!(context.level > 5)" = .ok negated ∧
        predicate.applies (.map context) = false ∧ negated.applies (.map context) = true := by
  intro context
  have texts : ∀ entry ∈ context, ∃ text, entry.2 = .str text :=
    List.forall_mem_singleton.mpr ⟨"high", rfl⟩
  obtain ⟨predicate, negated, first, second, opposite, -, compares⟩ :=
    negation_complements texts denotes_above_five
  have fits : ¬ Overflows (.map context)
      (.compare .greater (.lookup "level") (.literal (.number (.int 5)))) := by
    intro overflows
    cases overflows with
    | left inside => cases inside
    | right inside => cases inside
    | order _ operand =>
      obtain ⟨_, is, _⟩ | ⟨_, is, number, same, beyond⟩ := operand
      · cases is
      · cases is
        cases same
        exact absurd beyond (Nat.not_le_of_lt (Binary64.lt_overflow (by decide)))
  have noNumber : numeric? (.str "high") = none := by decide
  have incomparable : Incomparable (.str "high") (.int 5) :=
    ⟨nofun, .inl (by rw [magnitude, noNumber])⟩
  have value := compares .greater (.lookup "level") (.literal (.number (.int 5))) (.str "high")
    (.int 5) rfl rfl rfl incomparable fits
  have low : predicate.applies (.map context) = false := by
    cases (compile_of_denotes denotes_above_five).symm.trans first
    exact applies_of_counts ⟨_, value, rfl⟩ _
  exact ⟨texts, ⟨_, denotes_above_five⟩, predicate, negated, first, second, low,
    (opposite fits).mpr low⟩

/-! ### Integers beyond the range of floating-point numbers -/

/-- The integer is negative. -/
def isNegative (number : Nat) : Tree :=
  .compare .less (.literal (.number (.int number))) (.literal (.number (.int 0)))

theorem denotes_isNegative {number : Nat} (small : number < 10 ^ Numeral.maxDigits) :
    Denotes (String.ofList (Nat.toDigits 10 number) ++ " < 0") (isNegative number) := by
  have positive : 0 < 10 ^ Numeral.maxDigits := Nat.pow_pos (by decide)
  have blank : SpelledBefore Anything [' '] [] :=
    spelledBefore_blanks (List.forall_mem_singleton.mpr (by decide))
  have zero := blank.append (spelledBefore_number positive) fun _ _ => trivial
  have sign := (spelledBefore_operator .less).append zero fun _ _ => apart_sign (by decide)
  have padded := blank.append sign fun _ _ => trivial
  have whole := (spelledBefore_number small).append padded fun _ _ => apart_sign (by decide)
  have lexed := whole [] [] apart_nil .done
  refine ⟨[.number (.int number), .compare .less, .number (.int 0)], ?_,
    alone (.comparison (.compare (.primary (.number (.int number))) .less
      (.primary (.number (.int 0))))), rfl, rfl⟩
  rw [List.append_nil] at lexed
  rw [String.toList_append, String.toList_ofList]
  exact lexed

theorem overflows_isNegative {number : Nat} (beyond : Binary64.overflow ≤ number)
    (context : Value) : Overflows context (isNegative number) :=
  .order rfl (.inl ⟨_, rfl, _, rfl, beyond⟩)

theorem neither_isNegative {number : Nat} (beyond : Binary64.overflow ≤ number) (source : String) :
    (Predicate.mk source (.ok (isNegative number))).applies (.map []) = false ∧
      (Predicate.mk source (.ok (.not (isNegative number)))).applies (.map []) = false :=
  ⟨applies_of_overflows (List.forall_mem_nil _) (overflows_isNegative beyond _) source,
    applies_of_overflows (List.forall_mem_nil _) (.not (overflows_isNegative beyond _)) source⟩

/-- A great enough integer is neither negative nor not negative. -/
theorem vast_number_has_no_sign :
    let text := String.ofList (Nat.toDigits 10 (10 ^ 309)) ++ " < 0"
    (∃ predicate negated, compile text = .ok predicate ∧
      compile ("!(" ++ text ++ ")") = .ok negated ∧
      predicate.applies (.map []) = false ∧ negated.applies (.map []) = false) ∧
    ¬ ∀ (text : String) (tree : Tree) (fields : Fields), Denotes text tree →
      (∀ entry ∈ fields, ∃ text, entry.2 = .str text) →
      ∀ predicate negated, compile text = .ok predicate →
        compile ("!(" ++ text ++ ")") = .ok negated →
        (negated.applies (.map fields) = true ↔ predicate.applies (.map fields) = false) := by
  have between : Binary64.overflow ≤ 10 ^ 309 ∧ 10 ^ 309 < 10 ^ Numeral.maxDigits := by
    decide +kernel
  obtain ⟨beyond, small⟩ := between
  generalize 10 ^ 309 = number at small beyond ⊢
  intro text
  have denotes := denotes_isNegative small
  have first := compile_of_denotes denotes
  have second := compile_of_denotes denotes.negated
  have never := (neither_isNegative beyond text).1
  have neither := (neither_isNegative beyond ("!(" ++ text ++ ")")).2
  refine ⟨⟨_, _, first, second, never, neither⟩, fun complements => ?_⟩
  have holds := (complements text _ [] denotes (List.forall_mem_nil _) _ _ first second).mpr never
  rw [neither] at holds
  cases holds

end Predicate

end TextGrammar
