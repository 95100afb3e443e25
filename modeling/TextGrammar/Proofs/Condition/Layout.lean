import TextGrammar.Proofs.Condition.Compiled

/-!
How lexemes lie in a text. Main statement: blanks between lexemes make no difference. The lexemes of
a text stand one behind another with nothing but blanks around them, and with blanks inserted
anywhere but inside a lexeme the text has the same tokens and is read as the same condition.
-/

namespace TextGrammar.Condition

open Text

/-! ### Lexemes in their places -/

/-- A text that begins at a position, behind a dot or not, consists of the lexemes and of blanks
around them. -/
inductive Laid : Nat → Bool → List Char → List Lexeme → Prop where
  | done {position : Nat} {afterDot : Bool} : Laid position afterDot [] []
  | blank {position : Nat} {afterDot : Bool} {c : Char} {rest : List Char} {found : List Lexeme}
      (blank : isBlank c = true) (behind : Laid (position + 1) afterDot rest found) :
      Laid position afterDot (c :: rest) found
  | lexeme {position : Nat} {afterDot : Bool} {token : Token} {characters following : List Char}
      {found : List Lexeme} (spells : Spells afterDot token characters following)
      (behind : Laid (position + characters.length) (token = .dot) following found) :
      Laid position afterDot (characters ++ following)
        (⟨token, position, position + characters.length⟩ :: found)

/-- The token before is a dot, or nothing comes before and the text stands behind a dot. -/
def behindDot (afterDot : Bool) (before : List Lexeme) : Bool :=
  (before.getLast?.map fun last => decide (last.token = .dot)).getD afterDot

theorem laid_of_lexemesFrom {position : Nat} {afterDot : Bool} {text : List Char}
    {found : List Lexeme} (read : lexemesFrom position afterDot text = .ok found) :
    Laid position afterDot text found := by
  induction position, afterDot, text using lexemesFrom.induct generalizing found with
  | case1 position afterDot =>
    rw [lexemesFrom] at read
    cases read
    exact .done
  | case2 position afterDot c rest blank ih =>
    rw [lexemesFrom, if_pos blank] at read
    exact .blank blank (ih read)
  | case3 position afterDot c rest filled stop stopped =>
    rw [lexemesFrom, if_neg filled, stopped] at read
    cases read
  | case4 position afterDot c rest filled token count begins stop stopped ih =>
    rw [lexemesFrom, if_neg filled, begins] at read
    simp only [stopped] at read
    cases read
  | case5 position afterDot c rest filled token count begins more behind ih =>
    rw [lexemesFrom, if_neg filled, begins] at read
    simp only [behind] at read
    cases read
    obtain ⟨characters, following, text, rfl, spells⟩ := first_eq_ok_iff.mp begins
    have laid := ih behind
    rw [drop_of_cons text spells.nonempty] at laid
    exact text ▸ .lexeme spells laid

namespace Laid

variable {position : Nat} {afterDot : Bool} {text : List Char} {found : List Lexeme}

/-- The characters of a lexeme spell its token, given the lexemes before it and the characters
behind it. -/
theorem spells (laid : Laid position afterDot text found) {before more : List Lexeme}
    {lexeme : Lexeme} (split : found = before ++ lexeme :: more) :
    ∃ ahead characters following, text = ahead ++ (characters ++ following) ∧
      lexeme.start = position + ahead.length ∧
      lexeme.stop = lexeme.start + characters.length ∧
      Spells (behindDot afterDot before) lexeme.token characters following := by
  induction laid generalizing before with
  | done => simp at split
  | @blank _ _ c _ _ blank behind ih =>
    obtain ⟨ahead, characters, following, rfl, start, stop, spells⟩ := ih split
    refine ⟨c :: ahead, characters, following, rfl, ?_, stop, spells⟩
    rw [start, List.length_cons]
    omega
  | @lexeme _ _ token own _ found spells behind ih =>
    cases before with
    | nil =>
      cases split
      exact ⟨[], own, _, rfl, rfl, rfl, spells⟩
    | cons first before =>
      obtain ⟨rfl, rest⟩ := List.cons.inj split
      obtain ⟨ahead, characters, following, rfl, start, stop, spells⟩ := ih rest
      refine ⟨own ++ ahead, characters, following, by simp, ?_, stop, ?_⟩
      · rw [start, List.length_append]
        omega
      · cases before with
        | nil => exact spells
        | cons second before => simpa [behindDot, List.getLast?_cons] using spells

theorem bounds (laid : Laid position afterDot text found) :
    ∀ lexeme ∈ found, position ≤ lexeme.start ∧ lexeme.start < lexeme.stop ∧
      lexeme.stop ≤ position + text.length := by
  intro lexeme member
  obtain ⟨before, more, split⟩ := List.append_of_mem member
  obtain ⟨ahead, characters, following, rfl, start, stop, spells⟩ := laid.spells split
  have some := List.length_pos_iff.mpr spells.nonempty
  simp only [List.length_append]
  omega

/-- Each lexeme ends before the next one begins. -/
theorem pairwise (laid : Laid position afterDot text found) :
    found.Pairwise fun lexeme next => lexeme.stop ≤ next.start := by
  induction laid with
  | done => exact .nil
  | blank blank behind ih => exact ih
  | lexeme spells behind ih => exact .cons (fun next member => (behind.bounds next member).1) ih

/-- What is in no lexeme is blank. -/
theorem isBlank_of_outside (laid : Laid position afterDot text found) {index : Nat} {c : Char}
    (here : text[index]? = some c)
    (outside : ∀ lexeme ∈ found,
      ¬ (lexeme.start ≤ position + index ∧ position + index < lexeme.stop)) :
    isBlank c = true := by
  induction laid generalizing index with
  | done => simp at here
  | blank blank behind ih =>
    cases index with
    | zero =>
      cases here
      exact blank
    | succ index =>
      refine ih here fun lexeme member inside => outside lexeme member ?_
      omega
  | @lexeme _ _ _ characters _ _ spells behind ih =>
    obtain ⟨first, others⟩ := List.forall_mem_cons.mp outside
    simp only at first
    rw [List.getElem?_append_right (by omega)] at here
    refine ih here fun lexeme member inside => others lexeme member ?_
    omega

end Laid

/-! ### Inserted blanks -/

/-- The second text is the first one, which begins at a position, with blanks inserted at allowed
positions. -/
inductive Spaced (allowed : Nat → Prop) : Nat → List Char → List Char → Prop where
  | done {position : Nat} : Spaced allowed position [] []
  | insert {position : Nat} {c : Char} {text spaced : List Char} (blank : isBlank c = true)
      (here : allowed position) (behind : Spaced allowed position text spaced) :
      Spaced allowed position text (c :: spaced)
  | keep {position : Nat} {c : Char} {text spaced : List Char}
      (behind : Spaced allowed (position + 1) text spaced) :
      Spaced allowed position (c :: text) (c :: spaced)

namespace Spaced

variable {allowed : Nat → Prop} {position : Nat} {text spaced : List Char}

/-- The first character stays, behind blanks. -/
theorem cons_inv {c : Char} (inserted : Spaced allowed position (c :: text) spaced) :
    ∃ blanks behind, spaced = blanks ++ c :: behind ∧ (∀ b ∈ blanks, isBlank b = true) ∧
      (¬ allowed position → blanks = []) ∧ Spaced allowed (position + 1) text behind := by
  generalize whole : c :: text = text' at inserted
  induction inserted with
  | done => cases whole
  | insert blank here behind ih =>
    obtain ⟨blanks, after, rfl, all, -, rest⟩ := ih whole
    exact ⟨_ :: blanks, after, rfl, List.forall_mem_cons.mpr ⟨blank, all⟩,
      fun never => absurd here never, rest⟩
  | keep behind =>
    cases whole
    exact ⟨[], _, rfl, by simp, fun _ => rfl, behind⟩

theorem all_blank (inserted : Spaced allowed position [] spaced) :
    ∀ b ∈ spaced, isBlank b = true := by
  generalize whole : [] = text' at inserted
  induction inserted with
  | done => simp
  | insert blank here behind ih => exact List.forall_mem_cons.mpr ⟨blank, ih whole⟩
  | keep behind => cases whole

/-- Characters with no allowed position between them stay together. -/
theorem append_inv {characters : List Char} (nonempty : characters ≠ [])
    (inserted : Spaced allowed position (characters ++ text) spaced)
    (inside : ∀ place, position < place → place < position + characters.length → ¬ allowed place) :
    ∃ blanks behind, spaced = blanks ++ (characters ++ behind) ∧
      (∀ b ∈ blanks, isBlank b = true) ∧
      (¬ allowed position → blanks = []) ∧
      Spaced allowed (position + characters.length) text behind := by
  induction characters generalizing position spaced with
  | nil => exact absurd rfl nonempty
  | cons c rest ih =>
    obtain ⟨blanks, spaced, rfl, all, none, inserted⟩ := inserted.cons_inv
    cases rest with
    | nil => exact ⟨blanks, spaced, rfl, all, none, inserted⟩
    | cons d rest =>
      obtain ⟨inner, behind, rfl, -, noInner, inserted⟩ :=
        ih (List.cons_ne_nil d rest) inserted fun place after before =>
          inside place (by omega) (by simp only [List.length_cons] at before ⊢; omega)
      obtain rfl := noInner (inside _ (by omega) (by simp))
      refine ⟨blanks, behind, rfl, all, none, ?_⟩
      rwa [List.length_cons, Nat.add_comm _ 1, ← Nat.add_assoc]

theorem prepend (characters : List Char)
    (inserted : Spaced allowed (position + characters.length) text spaced) :
    Spaced allowed position (characters ++ text) (characters ++ spaced) := by
  induction characters generalizing position with
  | nil => exact inserted
  | cons c rest ih =>
    rw [List.length_cons, Nat.add_comm _ 1, ← Nat.add_assoc] at inserted
    exact .keep (ih inserted)

/-- No text without blanks begins the second text only. -/
theorem begins_text (inserted : Spaced allowed position text spaced) {run : List Char}
    (noBlank : ∀ c ∈ run, isBlank c = false) (begins : run <+: spaced) : run <+: text := by
  induction inserted generalizing run with
  | done => exact begins
  | insert blank here behind ih =>
    cases run with
    | nil => exact List.nil_prefix
    | cons d run =>
      obtain ⟨rfl, -⟩ := List.cons_prefix_cons.mp begins
      rw [noBlank d List.mem_cons_self] at blank
      cases blank
  | keep behind ih =>
    cases run with
    | nil => exact List.nil_prefix
    | cons d run =>
      obtain ⟨rfl, others⟩ := List.cons_prefix_cons.mp begins
      exact List.cons_prefix_cons.mpr ⟨rfl, ih (List.forall_mem_cons.mp noBlank).2 others⟩

/-- Where no character of a class stands, none stands behind blanks either. -/
theorem stops {inClass : Char → Bool} (noBlank : ∀ c, isBlank c = true → inClass c = false)
    (inserted : Spaced allowed position text spaced) (stops : Stops inClass text) :
    Stops inClass spaced := by
  cases inserted with
  | done => exact stops
  | insert blank here behind => exact stops_cons.mpr (noBlank _ blank)
  | keep behind => exact stops_cons.mpr (stops_cons.mp stops)

end Spaced

/-! ### Tokens before inserted blanks -/

section

variable {allowed : Nat → Prop} {position : Nat} {characters following spaced : List Char}

theorem Digits.before_blanks (digits : Digits characters following)
    (inserted : Spaced allowed position following spaced) : Digits characters spaced := by
  cases digits with
  | whole nonempty all stops noFraction =>
    refine .whole nonempty all (inserted.stops isDigit_of_isBlank stops) ?_
    rintro rest rfl
    cases inserted with
    | insert blank => exact absurd blank (by decide)
    | keep behind => exact behind.stops isDigit_of_isBlank (noFraction _ rfl)
  | fraction nonempty all some others stops =>
    exact .fraction nonempty all some others (inserted.stops isDigit_of_isBlank stops)

theorem symbols_noBlank : ∀ entry ∈ symbols, ∀ c ∈ entry.1, isBlank c = false := by
  have all : symbols.all (fun entry => entry.1.all fun c => !isBlank c) := by decide
  simpa only [List.all_eq_true, Bool.not_eq_true'] using all

/-- What spells a token does so before inserted blanks as well. -/
theorem Spells.before_blanks {afterDot : Bool} {token : Token}
    (spells : Spells afterDot token characters following)
    (inserted : Spaced allowed (position + characters.length) following spaced) :
    Spells afterDot token characters spaced := by
  cases spells with
  | string isQuote quoted => exact .string isQuote quoted
  | word begins all stops =>
    exact .word begins all (inserted.stops (fun _ blank => (isWordStart_of_isBlank blank).2) stops)
  | number apart noWord digits denotes =>
    exact .number apart noWord (digits.before_blanks inserted) denotes
  | symbol member longest =>
    refine .symbol member fun other listed begins => longest other listed ?_
    exact (inserted.prepend characters).begins_text (symbols_noBlank other listed) begins

theorem lexed_append_of_blanks {afterDot : Bool} {blanks text : List Char} {tokens : List Token}
    (all : ∀ b ∈ blanks, isBlank b = true) (lexed : Lexed afterDot text tokens) :
    Lexed afterDot (blanks ++ text) tokens := by
  induction blanks with
  | nil => exact lexed
  | cons b rest ih =>
    obtain ⟨blank, all⟩ := List.forall_mem_cons.mp all
    exact .blank blank (ih all)

end

/-- With blanks inserted nowhere inside a lexeme a text spells the same tokens. -/
theorem Laid.lexed {allowed : Nat → Prop} {position : Nat} {afterDot : Bool}
    {text spaced : List Char} {found : List Lexeme} (laid : Laid position afterDot text found)
    (inserted : Spaced allowed position text spaced)
    (inside : ∀ lexeme ∈ found, ∀ place, lexeme.start < place → place < lexeme.stop →
      ¬ allowed place) :
    Lexed afterDot spaced (found.map Lexeme.token) := by
  induction laid generalizing spaced with
  | done => simpa using lexed_append_of_blanks inserted.all_blank .done
  | blank blank behind ih =>
    obtain ⟨blanks, spaced, rfl, all, -, rest⟩ := inserted.cons_inv
    exact lexed_append_of_blanks all (.blank blank (ih rest inside))
  | lexeme spells behind ih =>
    obtain ⟨own, others⟩ := List.forall_mem_cons.mp inside
    obtain ⟨blanks, spaced, rfl, all, -, rest⟩ := inserted.append_inv spells.nonempty own
    exact lexed_append_of_blanks all (.token (spells.before_blanks rest) (ih rest others))

/-! ### Texts -/

/-- The positions that are not inside a lexeme, of which both ends are outside. -/
def Between (found : List Lexeme) (place : Nat) : Prop :=
  ∀ lexeme ∈ found, ¬ (lexeme.start < place ∧ place < lexeme.stop)

theorem laid_of_scan {text : String} {found : List Lexeme} (scanned : scan text = .ok found) :
    Laid 0 false text.toList found := by
  refine laid_of_lexemesFrom ?_
  rw [scan, lexemes] at scanned
  split at scanned
  · rename_i read
    cases scanned
    exact read
  · cases scanned
  · cases scanned

/-- Texts that spell the same tokens denote the same conditions. -/
theorem denotes_congr {text other : String} {tokens : List Token}
    (lexed : Lexed false text.toList tokens) (same : Lexed false other.toList tokens)
    (tree : Tree) : read text = .ok tree ↔ read other = .ok tree := by
  obtain ⟨found, scanned, rfl⟩ := scan_eq_ok_iff.mpr lexed
  obtain ⟨others, also, tokens⟩ := scan_eq_ok_iff.mpr same
  rw [read, read, scanned, also]
  simp only [tokens, bind, Except.bind]
  cases Tree.ofTokens (found.map Lexeme.token) with
  | ok tree => rfl
  | error stuck => cases stuck <;> simp [throw, throwThe, MonadExceptOf.throw]

/-- The lexemes of a text spell their tokens, each behind the one before it, and what is outside
them is blank. If blanks are inserted at positions inside no lexeme, the text has the same tokens,
and it is read as the same condition or refused as before. -/
theorem blanks_between_lexemes {text : String} {found : List Lexeme}
    (scanned : scan text = .ok found) :
    (∀ before lexeme more, found = before ++ lexeme :: more →
      ∃ ahead characters following, text.toList = ahead ++ (characters ++ following) ∧
        lexeme.start = ahead.length ∧ lexeme.stop = lexeme.start + characters.length ∧
        Spells (behindDot false before) lexeme.token characters following) ∧
    (∀ lexeme ∈ found, lexeme.start < lexeme.stop ∧ lexeme.stop ≤ text.toList.length) ∧
    (found.Pairwise fun lexeme next => lexeme.stop ≤ next.start) ∧
    (∀ (index : Nat) (c : Char), text.toList[index]? = some c →
      (∀ lexeme ∈ found, ¬ (lexeme.start ≤ index ∧ index < lexeme.stop)) → isBlank c = true) ∧
    ∀ spaced : String, Spaced (Between found) 0 text.toList spaced.toList →
      (∃ others, scan spaced = .ok others ∧
        others.map Lexeme.token = found.map Lexeme.token) ∧
      ∀ tree, read spaced = .ok tree ↔ read text = .ok tree := by
  have laid := laid_of_scan scanned
  refine ⟨fun before lexeme more split => ?_, fun lexeme member => ?_, laid.pairwise,
    fun index c here outside => ?_, fun spaced inserted => ?_⟩
  · obtain ⟨ahead, characters, following, whole, start, stop, spells⟩ := laid.spells split
    exact ⟨ahead, characters, following, whole, by omega, stop, spells⟩
  · have bounds := laid.bounds lexeme member
    omega
  · exact laid.isBlank_of_outside here (by simpa using outside)
  · have lexed := laid.lexed inserted fun lexeme member place after before allowed =>
      allowed lexeme member ⟨after, before⟩
    exact ⟨scan_eq_ok_iff.mpr lexed,
      denotes_congr lexed (scan_eq_ok_iff.mp ⟨found, scanned, rfl⟩)⟩

/-- Around the dot and before a word that begins with a digit blanks may stand. -/
theorem blanks_between_lexemes_key :
    scan "a.1" = .ok [⟨.word "a", 0, 1⟩, ⟨.dot, 1, 2⟩, ⟨.word "1", 2, 3⟩] ∧
      ∃ others, scan "a . 1" = .ok others ∧
        others.map Lexeme.token = [.word "a", .dot, .word "1"] := by
  have scanned : scan "a.1" = .ok [⟨.word "a", 0, 1⟩, ⟨.dot, 1, 2⟩, ⟨.word "1", 2, 3⟩] := by cbv
  have inserted : Spaced (Between [⟨.word "a", 0, 1⟩, ⟨.dot, 1, 2⟩, ⟨.word "1", 2, 3⟩]) 0
      "a.1".toList "a . 1".toList :=
    .keep (.insert (by decide) (by simp [Between])
      (.keep (.insert (by decide) (by simp [Between]) (.keep .done))))
  exact ⟨scanned, ((blanks_between_lexemes scanned).2.2.2.2 "a . 1" inserted).1⟩

end TextGrammar.Condition
