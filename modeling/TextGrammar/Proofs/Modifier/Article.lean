import Mathlib
import TextGrammar.Modifier.Article
import TextGrammar.Proofs.Text.Classes

/-!
How articles are made to agree. Main statements: a phrase is read off the front of a text exactly if
the text begins with a form of the article, blanks and a word that is as long as can be; and making
articles agree in a text whose articles were made to agree changes nothing.
-/

namespace TextGrammar.Article

open Text

/-! ### Characters -/

theorem isLetter_of_isAlpha {c : Char} (alpha : c.isAlpha = true) : isLetter c = true := by
  have small : c.toNat < 128 := by
    simp only [Char.isAlpha, Char.isUpper, Char.isLower, Bool.or_eq_true, Bool.and_eq_true,
      decide_eq_true_eq, ge_iff_le, UInt32.le_iff_toNat_le] at alpha
    have upper : 'Z'.val.toNat = 90 := rfl
    have lower : 'z'.val.toNat = 122 := rfl
    have same : c.toNat = c.val.toNat := rfl
    omega
  rw [isLetter, if_pos small, alpha]

theorem isInner_of_isAlpha {c : Char} (alpha : c.isAlpha = true) : isInner c = true := by
  simp [isInner, isWordChar, isAlphanumeric, isLetter_of_isAlpha alpha]

theorem isBlank_of_isAlpha {c : Char} (alpha : c.isAlpha = true) : isBlank c = false := by
  refine Bool.eq_false_iff.mpr fun blank => ?_
  have letter := isLetter_of_isAlpha alpha
  rw [isLetter_of_isBlank c blank] at letter
  cases letter

theorem isInner_of_isBlank {c : Char} (blank : isBlank c = true) : isInner c = false := by
  have others : c ≠ '_' ∧ c ≠ '\'' ∧ c ≠ '-' := by
    refine ⟨?_, ?_, ?_⟩ <;> (rintro rfl; revert blank; decide)
  simp [isInner, isWordChar, isAlphanumeric_of_isBlank blank, others]

/-! ### Articles -/

/-- A form of the article is a letter, or a letter and another one. -/
theorem forms_cases {article : List Char} (form : article ∈ forms) :
    ∃ c, (c = 'a' ∨ c = 'A') ∧ (article = [c] ∨ ∃ d, (d = 'n' ∨ d = 'N') ∧ article = [c, d]) := by
  revert article
  simp [forms]

/-- The first blank of a text is behind the article that it begins with. -/
theorem forms_filled : ∀ article ∈ forms, ∀ c ∈ article, (!isBlank c) = true := by
  have all : forms.all (fun article => article.all fun c => !isBlank c) := by decide
  simpa only [List.all_eq_true] using all

theorem agreeing_mem_forms (article word : List Char) : agreeing article word ∈ forms := by
  unfold agreeing
  split
  · cases wantsAn word <;> decide
  · split <;> cases wantsAn word <;> decide

/-- The first letter of an article stays. -/
theorem head?_agreeing {article : List Char} (form : article ∈ forms) (word : List Char) :
    (agreeing article word).head? = article.head? := by
  have all : ∀ article ∈ forms, ∀ an : Bool,
      (if article = ['A', 'N'] then (if an then ['A', 'N'] else ['A'])
        else if article.head? = some 'A' then (if an then ['A', 'n'] else ['A'])
        else if an then ['a', 'n'] else ['a']).head? = article.head? := by
    decide
  exact all article form (wantsAn word)

theorem agreeing_agreeing {article : List Char} (form : article ∈ forms) (word : List Char) :
    agreeing (agreeing article word) word = agreeing article word := by
  unfold agreeing
  cases wantsAn word <;> revert article <;> decide

/-! ### Phrases -/

/-- What is an article, blanks and a whole word, given what comes behind them. -/
structure Phrase.Before (phrase : Phrase) (following : List Char) : Prop where
  form : phrase.article ∈ forms
  parted : phrase.space ≠ []
  blank : ∀ c ∈ phrase.space, isBlank c = true
  letter : ∃ c rest, phrase.word = c :: rest ∧ c.isAlpha = true
  inner : ∀ c ∈ phrase.word, isInner c = true
  stops : Stops isInner following

/-- The characters of a phrase. -/
def Phrase.text (phrase : Phrase) : List Char := phrase.article ++ (phrase.space ++ phrase.word)

/-- The phrase with the article that its word asks for. -/
def Phrase.fitted (phrase : Phrase) : Phrase :=
  { phrase with article := agreeing phrase.article phrase.word }

theorem Phrase.text_fitted (phrase : Phrase) : phrase.fitted.text = phrase.agreed :=
  (List.append_assoc _ _ _).symm

theorem agreed_fitted {phrase : Phrase} (form : phrase.article ∈ forms) :
    phrase.fitted.agreed = phrase.agreed := by
  rw [Phrase.agreed, Phrase.agreed, Phrase.fitted, agreeing_agreeing form]

theorem Phrase.Before.fitted {phrase : Phrase} {following other : List Char}
    (before : phrase.Before following) (stops : Stops isInner other) :
    phrase.fitted.Before other :=
  { before with form := agreeing_mem_forms _ _, stops }

theorem Phrase.Before.text_ne_nil {phrase : Phrase} {following : List Char}
    (before : phrase.Before following) : phrase.text ≠ [] := by
  obtain ⟨c, -, own | ⟨d, -, own⟩⟩ := forms_cases before.form <;> simp [Phrase.text, own]

theorem phraseWith?_eq_some_iff {text article : List Char} {phrase : Phrase} :
    phraseWith? text article = some phrase ∧ article ∈ forms ↔
      phrase.article = article ∧ ∃ following, text = phrase.text ++ following ∧
        phrase.Before following := by
  constructor
  · rintro ⟨found, form⟩
    rw [phraseWith?] at found
    split at found
    · rename_i begins
      obtain ⟨rest, rfl⟩ := List.isPrefixOf_iff_prefix.mp begins
      rw [List.drop_left] at found
      simp only at found
      split at found
      · rename_i fits
        cases found
        simp only [Bool.and_eq_true, Bool.not_eq_true', Option.any_eq_true] at fits
        obtain ⟨parted, c, first, alpha⟩ := fits
        refine ⟨rfl, (rest.dropWhile isBlank).dropWhile isInner, by simp [Phrase.text], form, ?_,
          ?_, ?_, ?_, stops_dropWhile _ _⟩
        · simpa using parted
        · exact fun c member => List.all_eq_true.mp List.all_takeWhile c member
        · obtain ⟨more, same⟩ := List.head?_eq_some_iff.mp first
          exact ⟨c, more, same, alpha⟩
        · exact fun c member => List.all_eq_true.mp List.all_takeWhile c member
      · cases found
    · cases found
  · rintro ⟨rfl, following, rfl, before⟩
    refine ⟨?_, before.form⟩
    obtain ⟨c, more, word, alpha⟩ := before.letter
    have behind : Stops isBlank (phrase.word ++ following) := by
      rw [word]
      exact stops_cons.mpr (isBlank_of_isAlpha alpha)
    have begins : phrase.article.isPrefixOf (phrase.text ++ following) = true :=
      List.isPrefixOf_iff_prefix.mpr (by simp [Phrase.text])
    rw [phraseWith?, if_pos begins]
    simp only [Phrase.text, List.append_assoc, List.drop_left,
      takeWhile_of_stops before.blank behind, dropWhile_of_stops before.blank behind,
      takeWhile_of_stops before.inner before.stops]
    rw [if_pos]
    simp [before.parted, word, alpha]

/-- A phrase is told by the text: its article is what comes before the first blank. -/
theorem takeWhile_phrase {phrase : Phrase} {following : List Char}
    (before : phrase.Before following) :
    (phrase.text ++ following).takeWhile (!isBlank ·) = phrase.article := by
  obtain ⟨b, more, space⟩ := List.exists_cons_of_ne_nil before.parted
  have blank : isBlank b = true := before.blank b (space ▸ List.mem_cons_self)
  rw [Phrase.text, List.append_assoc]
  refine takeWhile_of_stops (forms_filled _ before.form) ?_
  rw [space]
  exact stops_cons.mpr (by simp [blank])

/-- The phrase at the front of a text is the one that the text begins with. -/
theorem phrase?_eq_some_iff {text : List Char} {phrase : Phrase} :
    phrase? text = some phrase ↔ ∃ following, text = phrase.text ++ following ∧
      phrase.Before following := by
  constructor
  · intro found
    obtain ⟨article, form, found⟩ := List.exists_of_findSome?_eq_some found
    exact (phraseWith?_eq_some_iff.mp ⟨found, form⟩).2
  · rintro ⟨following, rfl, before⟩
    have own := (phraseWith?_eq_some_iff.mpr ⟨rfl, following, rfl, before⟩).1
    cases found : phrase? (phrase.text ++ following) with
    | none =>
      rw [List.findSome?_eq_none_iff.mp found _ before.form] at own
      cases own
    | some other =>
      obtain ⟨article, form, found⟩ := List.exists_of_findSome?_eq_some found
      obtain ⟨rfl, rest, same, also⟩ := phraseWith?_eq_some_iff.mp ⟨found, form⟩
      have article := takeWhile_phrase before
      rw [same, takeWhile_phrase also] at article
      rw [article, own] at found
      exact found.symm

theorem exists_phrase {article space : List Char} {c : Char} (form : article ∈ forms)
    (parted : space ≠ []) (blank : ∀ b ∈ space, isBlank b = true) (alpha : c.isAlpha = true)
    (more : List Char) :
    ∃ word, phrase? (article ++ (space ++ c :: more)) = some ⟨article, space, word⟩ := by
  refine ⟨c :: more.takeWhile isInner,
    phrase?_eq_some_iff.mpr ⟨more.dropWhile isInner, by simp [Phrase.text], form, parted, blank,
      ⟨c, _, rfl, alpha⟩, ?_, stops_dropWhile _ _⟩⟩
  refine List.forall_mem_cons.mpr ⟨isInner_of_isAlpha alpha, fun d member => ?_⟩
  exact List.all_eq_true.mp List.all_takeWhile d member

/-! ### Texts -/

theorem agreeFrom_phrase {phrase : Phrase} {following : List Char}
    (before : phrase.Before following) :
    agreeFrom false (phrase.text ++ following) =
      phrase.agreed ++ agreeFrom (phrase.word.getLast?.any isWordChar) following := by
  have found := phrase?_eq_some_iff.mpr ⟨following, rfl, before⟩
  obtain ⟨c, rest, text⟩ := List.exists_cons_of_ne_nil before.text_ne_nil
  have length : phrase.length = rest.length + 1 := by
    have whole := congrArg List.length text
    simp only [Phrase.text, List.length_append, List.length_cons] at whole
    rw [Phrase.length]
    omega
  rw [text, List.cons_append] at found ⊢
  rw [agreeFrom]
  simp [found, length]

theorem agreeFrom_cons {inWord : Bool} {c : Char} {rest : List Char}
    (plain : inWord = true ∨ phrase? (c :: rest) = none) :
    agreeFrom inWord (c :: rest) = c :: agreeFrom (isWordChar c) rest := by
  rw [agreeFrom]
  cases inWord with
  | true => rfl
  | false =>
    have none := plain.resolve_left Bool.false_ne_true
    simp [none]

/-- A text is empty, or a phrase stands at its front, or a character that stays. -/
theorem agreeFrom_induction {motive : Bool → List Char → Prop}
    (done : ∀ inWord, motive inWord [])
    (phrase : ∀ (phrase : Phrase) (following : List Char), phrase.Before following →
      motive (phrase.word.getLast?.any isWordChar) following →
        motive false (phrase.text ++ following))
    (plain : ∀ inWord c rest, (inWord = true ∨ phrase? (c :: rest) = none) →
      motive (isWordChar c) rest → motive inWord (c :: rest))
    (inWord : Bool) (text : List Char) : motive inWord text := by
  induction length : text.length using Nat.strongRecOn generalizing inWord text with
  | ind size ih =>
    cases text with
    | nil => exact done inWord
    | cons c rest =>
      have kept (stays : inWord = true ∨ phrase? (c :: rest) = none) : motive inWord (c :: rest) :=
        plain inWord c rest stays (ih rest.length (by simp [← length]) _ rest rfl)
      cases inWord with
      | true => exact kept (.inl rfl)
      | false =>
        cases found : phrase? (c :: rest) with
        | none => exact kept (.inr found)
        | some found' =>
          obtain ⟨following, text, before⟩ := phrase?_eq_some_iff.mp found
          have filled := List.length_pos_iff.mpr before.text_ne_nil
          have shorter : following.length < size := by
            rw [← length, text, List.length_append]
            omega
          exact text ▸ phrase found' following before (ih _ shorter _ following rfl)

theorem head?_agreeFrom (inWord : Bool) (text : List Char) :
    (agreeFrom inWord text).head? = text.head? := by
  induction inWord, text using agreeFrom_induction with
  | done inWord => rw [agreeFrom]
  | phrase phrase following before ih =>
    obtain ⟨c, -, own⟩ := forms_cases before.form
    have same := head?_agreeing before.form phrase.word
    rw [agreeFrom_phrase before]
    rcases own with own | ⟨d, -, own⟩ <;>
      simp only [own, List.head?_cons] at same <;>
      simp [Phrase.agreed, Phrase.text, own, same]
  | plain inWord c rest plain ih =>
    rw [agreeFrom_cons plain]
    rfl

/-- A character that begins no article stays, and so does every character inside a word. -/
theorem agreeFrom_eq_cons {inWord : Bool} {text more : List Char} {d : Char}
    (same : agreeFrom inWord text = d :: more) (kept : inWord = true ∨ d ≠ 'a' ∧ d ≠ 'A') :
    ∃ rest, text = d :: rest ∧ more = agreeFrom (isWordChar d) rest := by
  have first := head?_agreeFrom inWord text
  rw [same] at first
  obtain ⟨rest, rfl⟩ := List.head?_eq_some_iff.mp first.symm
  have plain : inWord = true ∨ phrase? (d :: rest) = none := by
    refine kept.imp_right fun other => Option.eq_none_iff_forall_ne_some.mpr fun phrase found => ?_
    obtain ⟨following, text, before⟩ := phrase?_eq_some_iff.mp found
    obtain ⟨c, article, own⟩ := forms_cases before.form
    have begins : d = c := by rcases own with own | ⟨e, -, own⟩ <;> simp_all [Phrase.text]
    exact article.elim (fun small => other.1 (begins.trans small))
      fun large => other.2 (begins.trans large)
  rw [agreeFrom_cons plain] at same
  exact ⟨rest, rfl, (List.cons.inj same).2.symm⟩

theorem agreeFrom_eq_blanks {inWord : Bool} {text space more : List Char}
    (blank : ∀ b ∈ space, isBlank b = true) (same : agreeFrom inWord text = space ++ more) :
    ∃ inside rest, text = space ++ rest ∧ more = agreeFrom inside rest := by
  induction space generalizing inWord text with
  | nil => exact ⟨inWord, text, rfl, same.symm⟩
  | cons b space ih =>
    obtain ⟨first, others⟩ := List.forall_mem_cons.mp blank
    have noArticle : b ≠ 'a' ∧ b ≠ 'A' := by
      constructor <;> (rintro rfl; revert first; decide)
    obtain ⟨rest, rfl, behind⟩ := agreeFrom_eq_cons same (.inr noArticle)
    obtain ⟨inside, rest, rfl, more⟩ := ih others behind.symm
    exact ⟨inside, rest, rfl, more⟩

/-- What makes an article one behind it, blanks and a letter, was there before. -/
theorem exists_phrase_of_agreeFrom {inWord : Bool} {text following : List Char} {phrase : Phrase}
    (before : phrase.Before following)
    (same : agreeFrom inWord text = phrase.space ++ (phrase.word ++ following)) :
    ∃ word, phrase? (phrase.article ++ text) = some ⟨phrase.article, phrase.space, word⟩ := by
  obtain ⟨d, more, word, alpha⟩ := before.letter
  obtain ⟨inside, last, rfl, behind⟩ := agreeFrom_eq_blanks before.blank same
  have first := head?_agreeFrom inside last
  rw [← behind, word] at first
  obtain ⟨others, rfl⟩ := List.head?_eq_some_iff.mp first.symm
  exact exists_phrase before.form before.parted before.blank alpha others

/-- No article comes to be where none was. -/
theorem phrase?_cons_agreeFrom {c : Char} {rest : List Char}
    (absent : phrase? (c :: rest) = none) :
    phrase? (c :: agreeFrom (isWordChar c) rest) = none := by
  refine Option.eq_none_iff_forall_ne_some.mpr fun phrase found => ?_
  obtain ⟨following, text, before⟩ := phrase?_eq_some_iff.mp found
  obtain ⟨e, letter, own⟩ := forms_cases before.form
  -- the characters of the article stay, being one letter or two in one word
  have article : ∃ inside rest', c :: rest = phrase.article ++ rest' ∧
      agreeFrom inside rest' = phrase.space ++ (phrase.word ++ following) := by
    rcases own with own | ⟨n, -, own⟩
    · rw [Phrase.text, own] at text
      obtain ⟨rfl, behind⟩ := List.cons.inj text
      exact ⟨_, rest, by rw [own]; rfl, by simpa using behind⟩
    · rw [Phrase.text, own] at text
      obtain ⟨rfl, behind⟩ := List.cons.inj text
      have inside : isWordChar c = true := by rcases letter with rfl | rfl <;> decide
      obtain ⟨rest', rfl, also⟩ := agreeFrom_eq_cons behind (.inl inside)
      exact ⟨_, rest', by rw [own]; rfl, by simpa using also.symm⟩
  obtain ⟨inside, rest', split, behind⟩ := article
  obtain ⟨word, found⟩ := exists_phrase_of_agreeFrom before behind
  rw [split, found] at absent
  cases absent

theorem stops_agreeFrom {inClass : Char → Bool} {text : List Char} (stops : Stops inClass text)
    (inWord : Bool) : Stops inClass (agreeFrom inWord text) := by
  rw [Stops, head?_agreeFrom]
  exact stops

/-- Agreement comes once and for all. -/
theorem agreeFrom_agreeFrom (inWord : Bool) (text : List Char) :
    agreeFrom inWord (agreeFrom inWord text) = agreeFrom inWord text := by
  induction inWord, text using agreeFrom_induction with
  | done inWord => rw [agreeFrom, agreeFrom]
  | phrase phrase following before ih =>
    have again := agreeFrom_phrase
      (before.fitted (stops_agreeFrom before.stops (phrase.word.getLast?.any isWordChar)))
    rw [agreeFrom_phrase before, ← phrase.text_fitted, again, agreed_fitted before.form,
      phrase.text_fitted]
    exact congrArg (phrase.agreed ++ ·) ih
  | plain inWord c rest plain ih =>
    rw [agreeFrom_cons plain, agreeFrom_cons (plain.imp_right phrase?_cons_agreeFrom), ih]

theorem agree_agree (text : List Char) : agree (agree text) = agree text :=
  agreeFrom_agreeFrom false text

end TextGrammar.Article
