import TextGrammar.Proofs.Modifier.Article

/-!
Which articles agree. Main statement: in a text whose articles were made to agree, every article
agrees with the word behind it, except that an article which ends the word behind another article is
left as it was; so all articles agree if no article of the text stands there.
-/

namespace TextGrammar.Article

open Text

/-- The article is one of the forms of `an`. -/
def isAn (article : List Char) : Bool := article.map Char.toLower = ['a', 'n']

/-- The article is one of the forms of `an` exactly if the word asks for that. -/
def Phrase.Agrees (phrase : Phrase) : Prop := isAn phrase.article = wantsAn phrase.word

instance (phrase : Phrase) : Decidable phrase.Agrees :=
  inferInstanceAs (Decidable (isAn phrase.article = wantsAn phrase.word))

theorem agrees_fitted {phrase : Phrase} : phrase.fitted.Agrees := by
  unfold Phrase.Agrees Phrase.fitted agreeing
  simp only
  split
  · cases wantsAn phrase.word <;> decide
  · split <;> cases wantsAn phrase.word <;> decide

/-- No article has a first letter of articles behind its own. -/
theorem forms_tail : ∀ article ∈ forms, 'a' ∉ article.tail ∧ 'A' ∉ article.tail := by decide

/-! ### Places -/

/-- Whether a character of a word stands behind some characters, which themselves stand behind one
or not. -/
def endsInWord (inWord : Bool) (before : List Char) : Bool :=
  before.foldl (fun _ c => isWordChar c) inWord

theorem endsInWord_append (inWord : Bool) (front before : List Char) :
    endsInWord inWord (front ++ before) = endsInWord (endsInWord inWord front) before :=
  List.foldl_append

/-- Only the last character counts. -/
theorem endsInWord_eq {before : List Char} (some : before ≠ []) (inWord : Bool) :
    endsInWord inWord before = before.getLast?.any isWordChar := by
  obtain ⟨front, c, rfl⟩ := List.eq_nil_or_concat' before |>.resolve_left some
  rw [endsInWord_append, List.getLast?_concat]
  rfl

/-- A phrase in a text, with what stands before it and behind it: its article begins a word, and its
word is as long as can be. -/
structure Stands (inWord : Bool) (text before : List Char) (phrase : Phrase)
    (following : List Char) : Prop where
  split : text = before ++ (phrase.text ++ following)
  begins : endsInWord inWord before = false
  whole : phrase.Before following

theorem Stands.read {inWord : Bool} {text before following : List Char} {phrase : Phrase}
    (stands : Stands inWord text before phrase following) :
    phrase? (phrase.text ++ following) = some phrase :=
  phrase?_eq_some_iff.mpr ⟨following, rfl, stands.whole⟩

/-- A phrase stands exactly where it is read. -/
theorem stands_iff {inWord : Bool} {text before following : List Char} {phrase : Phrase} :
    Stands inWord text before phrase following ↔
      text = before ++ (phrase.text ++ following) ∧ endsInWord inWord before = false ∧
        phrase? (phrase.text ++ following) = some phrase := by
  constructor
  · exact fun stands => ⟨stands.split, stands.begins, stands.read⟩
  · rintro ⟨split, begins, found⟩
    obtain ⟨other, same, whole⟩ := phrase?_eq_some_iff.mp found
    exact ⟨split, begins, List.append_cancel_left same ▸ whole⟩

instance (inWord : Bool) (text before : List Char) (phrase : Phrase) (following : List Char) :
    Decidable (Stands inWord text before phrase following) :=
  decidable_of_iff' _ stands_iff

/-- In the text made to agree, the article of a phrase is the end of the word of another phrase,
which was made to agree, and nothing of that word was changed. -/
def Taken (inWord : Bool) (text before : List Char) (phrase : Phrase) (following : List Char) :
    Prop :=
  ∃ front outer rest lead, Stands inWord text front outer rest ∧
    outer.word = lead ++ phrase.article ∧
    before = agreeFrom inWord front ++ (outer.fitted.article ++ (outer.space ++ lead)) ∧
    agreeFrom (outer.word.getLast?.any isWordChar) rest =
      phrase.space ++ (phrase.word ++ following)

/-- A character that is not in the first of two parts is behind it. -/
theorem exists_behind {front back before tail : List Char} {d : Char}
    (split : front ++ back = before ++ d :: tail)
    (notWithin : ∀ within, front ≠ before ++ d :: within) :
    ∃ between, before = front ++ between ∧ back = between ++ d :: tail := by
  rcases List.append_eq_append_iff.mp split with found | ⟨within, own, rest⟩
  · exact found
  · cases within with
    | nil => exact ⟨[], by simpa using own.symm, rest.symm⟩
    | cons e within =>
      cases rest
      exact absurd own (notWithin within)

section

variable {phrase : Phrase} {following : List Char} (whole : phrase.Before following)

include whole

theorem Phrase.Before.exists_text_eq_cons :
    ∃ c more, phrase.text = c :: more ∧ (c = 'a' ∨ c = 'A') := by
  obtain ⟨c, letter, own | ⟨d, -, own⟩⟩ := forms_cases whole.form
  · exact ⟨c, _, by rw [Phrase.text, own]; rfl, letter⟩
  · exact ⟨c, _, by rw [Phrase.text, own]; rfl, letter⟩

theorem Phrase.Before.endsInWord_text (inWord : Bool) :
    endsInWord inWord phrase.text = phrase.word.getLast?.any isWordChar := by
  obtain ⟨c, rest, word, -⟩ := whole.letter
  rw [Phrase.text, endsInWord_append, endsInWord_append, endsInWord_eq (by simp [word])]

theorem isInner_of_mem_article : ∀ c ∈ phrase.article, isInner c = true := by
  have all : ∀ article ∈ forms, ∀ c ∈ article, isInner c = true := by
    have each : forms.all (fun article => article.all isInner) := by decide
    simpa only [List.all_eq_true] using each
  exact all _ whole.form

/-- The word at the front of the characters from an article on is the article. -/
theorem takeWhile_isInner_phrase :
    (phrase.text ++ following).takeWhile isInner = phrase.article := by
  obtain ⟨b, more, space⟩ := List.exists_cons_of_ne_nil whole.parted
  rw [Phrase.text, List.append_assoc]
  refine takeWhile_of_stops (isInner_of_mem_article whole) ?_
  rw [space]
  exact stops_cons.mpr (isInner_of_isBlank (whole.blank b (space ▸ List.mem_cons_self)))

/-- Where another phrase begins inside a phrase, its article is the end of the word. -/
theorem inside_word {other : Phrase} {before tail behind : List Char}
    (split : phrase.text = before ++ tail) (later : before ≠ []) (some : tail ≠ [])
    (other_whole : other.Before behind)
    (same : tail ++ following = other.text ++ behind) :
    ∃ lead, phrase.word = lead ++ other.article ∧
      before = phrase.article ++ (phrase.space ++ lead) ∧
      following = other.space ++ (other.word ++ behind) := by
  obtain ⟨c, more, begins, letter⟩ := other_whole.exists_text_eq_cons
  obtain ⟨d, tail', rfl⟩ := List.exists_cons_of_ne_nil some
  obtain rfl : d = c := by
    rw [begins] at same
    exact (List.cons.inj same).1
  -- it is no blank, and no article has such a letter behind its first one
  have notBlank {blanks : List Char} (within : List Char) :
      phrase.space ≠ blanks ++ d :: within := by
    intro own
    have blank := whole.blank d (by simp [own])
    rcases letter with rfl | rfl <;> revert blank <;> decide
  have notLater (within : List Char) : phrase.article ≠ before ++ d :: within := by
    intro own
    obtain ⟨c, rest, rfl⟩ := List.exists_cons_of_ne_nil later
    have member : d ∈ phrase.article.tail := by simp [own]
    obtain ⟨noSmall, noCapital⟩ := forms_tail _ whole.form
    exact letter.elim (fun small => noSmall (small ▸ member))
      fun capital => noCapital (capital ▸ member)
  rw [Phrase.text] at split
  obtain ⟨blanks, rfl, rest⟩ := exists_behind split notLater
  obtain ⟨lead, rfl, word⟩ := exists_behind rest notBlank
  have article : d :: tail' = other.article := by
    rw [← takeWhile_isInner_phrase other_whole, ← same]
    refine (takeWhile_of_stops (fun c member => whole.inner c ?_) whole.stops).symm
    rw [word]
    exact List.mem_append_right lead member
  refine ⟨lead, article ▸ word, rfl, ?_⟩
  rw [article, Phrase.text, List.append_assoc] at same
  simpa using List.append_cancel_left same

end

/-! ### The text made to agree -/

theorem endsInWord_agreed {phrase : Phrase} {following : List Char}
    (whole : phrase.Before following) (inWord : Bool) :
    endsInWord inWord phrase.agreed = phrase.word.getLast?.any isWordChar := by
  rw [← phrase.text_fitted]
  exact (whole.fitted whole.stops).endsInWord_text inWord

/-- An article that does not stand in a text does not stand in its beginning. -/
theorem phrase?_of_append {front behind : List Char} (absent : phrase? (front ++ behind) = none) :
    phrase? front = none := by
  apply Option.eq_none_iff_forall_ne_some.mpr
  intro phrase found
  obtain ⟨following, rfl, whole⟩ := phrase?_eq_some_iff.mp found
  obtain ⟨c, more, word, alpha⟩ := whole.letter
  obtain ⟨longer, also⟩ := exists_phrase whole.form whole.parted whole.blank alpha
    (more ++ following ++ behind)
  have same : phrase.text ++ following ++ behind =
      phrase.article ++ (phrase.space ++ c :: (more ++ following ++ behind)) := by
    simp [Phrase.text, word]
  rw [same, also] at absent
  cases absent

/-- What is taken behind a phrase that was made to agree is taken in the whole. -/
theorem Taken.behind_phrase {outer phrase : Phrase} {text before following : List Char}
    (whole : outer.Before text)
    (taken : Taken (outer.word.getLast?.any isWordChar) text before phrase following) :
    Taken false (outer.text ++ text) (outer.agreed ++ before) phrase following := by
  obtain ⟨front, inner, rest, lead, stands, word, rfl, behind⟩ := taken
  refine ⟨outer.text ++ front, inner, rest, lead, ⟨?_, ?_, stands.whole⟩, word, ?_, behind⟩
  · rw [stands.split, List.append_assoc]
  · rw [endsInWord_append, whole.endsInWord_text]
    exact stands.begins
  · have stops : Stops isInner front := by
      have all := whole.stops
      rw [stands.split] at all
      exact stops_of_append all
    rw [agreeFrom_phrase { whole with stops }, List.append_assoc]

/-- So it is behind a character that stays. -/
theorem Taken.behind_character {phrase : Phrase} {inWord : Bool} {c : Char}
    {text before following : List Char} (plain : inWord = true ∨ phrase? (c :: text) = none)
    (taken : Taken (isWordChar c) text before phrase following) :
    Taken inWord (c :: text) (c :: before) phrase following := by
  obtain ⟨front, inner, rest, lead, stands, word, rfl, behind⟩ := taken
  refine ⟨c :: front, inner, rest, lead, ⟨?_, stands.begins, stands.whole⟩, word, ?_, behind⟩
  · rw [stands.split]
    rfl
  · have shorter : inWord = true ∨ phrase? (c :: front) = none := by
      apply plain.imp_right
      intro absent
      rw [stands.split, ← List.cons_append] at absent
      exact phrase?_of_append absent
    rw [agreeFrom_cons shorter]
    rfl

/-- An article of the text made to agree agrees, or it is taken. -/
theorem agrees_or_taken (inWord : Bool) (text : List Char) {before following : List Char}
    {phrase : Phrase} (stands : Stands inWord (agreeFrom inWord text) before phrase following) :
    phrase.Agrees ∨ Taken inWord text before phrase following := by
  induction inWord, text using agreeFrom_induction generalizing before with
  | done inWord =>
    have split := stands.split
    rw [agreeFrom] at split
    simp [stands.whole.text_ne_nil] at split
  | phrase outer rest whole ih =>
    have fitted := whole.fitted (stops_agreeFrom whole.stops (outer.word.getLast?.any isWordChar))
    have split := stands.split
    rw [agreeFrom_phrase whole] at split
    -- the article stands behind the phrase that was made to agree, or in it
    have beyond (behind : List Char) (place : before = outer.agreed ++ behind)
        (same : agreeFrom (outer.word.getLast?.any isWordChar) rest =
          behind ++ (phrase.text ++ following)) :
        phrase.Agrees ∨ Taken false (outer.text ++ rest) before phrase following := by
      have begins := stands.begins
      rw [place, endsInWord_append, endsInWord_agreed whole] at begins
      rw [place]
      exact (ih ⟨same, begins, stands.whole⟩).imp_right (Taken.behind_phrase whole)
    rcases List.append_eq_append_iff.mp split with ⟨behind, place, same⟩ | ⟨tail, own, same⟩
    · exact beyond behind place same
    · by_cases ended : tail = []
      · subst ended
        exact beyond [] (by simpa using own.symm) (by simpa using same.symm)
      · by_cases start : before = []
        · subst start
          -- the article of the phrase that was made to agree
          have here := phrase?_eq_some_iff.mpr ⟨following, split, stands.whole⟩
          rw [← outer.text_fitted, phrase?_eq_some_iff.mpr ⟨_, rfl, fitted⟩] at here
          cases here
          exact .inl agrees_fitted
        · obtain ⟨lead, word, place, behind⟩ :=
            inside_word fitted (outer.text_fitted.trans own) start ended stands.whole same.symm
          exact .inr ⟨[], outer, rest, lead, ⟨rfl, rfl, whole⟩, word, by rw [place, agreeFrom]; rfl,
            behind⟩
  | plain inWord c rest plain ih =>
    have split := stands.split
    rw [agreeFrom_cons plain] at split
    cases before with
    | nil =>
      have boundary : inWord = false := stands.begins
      have absent := phrase?_cons_agreeFrom (plain.resolve_left (by simp [boundary]))
      rw [phrase?_eq_some_iff.mpr ⟨following, split, stands.whole⟩] at absent
      cases absent
    | cons d before =>
      obtain ⟨rfl, same⟩ := List.cons.inj split
      exact (ih ⟨same, stands.begins, stands.whole⟩).imp_right (Taken.behind_character plain)

/-- In the text itself, too, an article stands where one is taken. -/
theorem Taken.exists_place {inWord : Bool} {text before following : List Char} {phrase : Phrase}
    (stands : Stands inWord (agreeFrom inWord text) before phrase following)
    (taken : Taken inWord text before phrase following) :
    ∃ front outer rest lead other behind, Stands inWord text front outer rest ∧
      outer.word = lead ++ other.article ∧
      Stands inWord text (front ++ (outer.article ++ (outer.space ++ lead))) other behind := by
  obtain ⟨front, outer, rest, lead, outer_stands, word, rfl, same⟩ := taken
  obtain ⟨longer, found⟩ := exists_phrase_of_agreeFrom stands.whole same
  obtain ⟨behind, split, whole⟩ := phrase?_eq_some_iff.mp found
  refine ⟨front, outer, rest, lead, ⟨phrase.article, phrase.space, longer⟩, behind, outer_stands,
    word, ?_, ?_, whole⟩
  · rw [outer_stands.split, ← split]
    simp [Phrase.text, word]
  · -- the blanks tell what stands before the article, whatever the form of the one before them
    have parted : outer.space ++ lead ≠ [] := by simp [outer_stands.whole.parted]
    have begins := stands.begins
    rw [endsInWord_append, endsInWord_append, endsInWord_eq parted] at begins ⊢
    exact begins

/-- No article of the text stands at the end of the word behind another one. -/
def Apart (text : List Char) : Prop :=
  ∀ front outer rest lead other behind, Stands false text front outer rest →
    outer.word = lead ++ other.article →
    ¬ Stands false text (front ++ (outer.article ++ (outer.space ++ lead))) other behind

/-- Wherever an article stands in the text made to agree, it agrees or is taken by another one; so
all agree if no two articles of the text meet. -/
theorem articles_agree_unless_taken (text : List Char) :
    (∀ before phrase following, Stands false (agree text) before phrase following →
      phrase.Agrees ∨ Taken false text before phrase following) ∧
    (Apart text → ∀ before phrase following,
      Stands false (agree text) before phrase following → phrase.Agrees) := by
  constructor
  · intro before phrase following stands
    exact agrees_or_taken false text stands
  · intro apart before phrase following stands
    rcases agrees_or_taken false text stands with agrees | taken
    · exact agrees
    · obtain ⟨front, outer, rest, lead, other, behind, outer_stands, word, other_stands⟩ :=
        taken.exists_place stands
      exact absurd other_stands (apart front outer rest lead other behind outer_stands word)

/-- A text with one article that asks for another form. -/
theorem agree_owl : agree "a owl".toList = "an owl".toList := by decide +kernel

/-- In this text the second article is the word behind the first one, and stays. -/
theorem agree_two_articles : agree "a a owl".toList = "an a owl".toList := by decide +kernel

theorem stands_behind_article :
    Stands false (agree "a a owl".toList) "an ".toList ⟨['a'], [' '], "owl".toList⟩ [] := by
  rw [agree_two_articles]
  decide +kernel

/-- Behind its first character this text has no article. -/
theorem apart_owl : Apart "a owl".toList := by
  intro front outer rest lead other behind stands word other_stands
  have nowhere : ∀ n < 6, n ≠ 0 → phrase? ("a owl".toList.drop n) = none := by decide +kernel
  have split := other_stands.split
  have length : 5 = _ := congrArg List.length split
  have parted := List.length_pos_iff.mpr stands.whole.parted
  simp only [List.length_append] at length
  have absent := nowhere (front ++ (outer.article ++ (outer.space ++ lead))).length
    (by simp only [List.length_append]; omega) (by simp only [List.length_append]; omega)
  rw [split, List.drop_left, other_stands.read] at absent
  cases absent

theorem articles_before_owl :
    Taken false "a a owl".toList "an ".toList ⟨['a'], [' '], "owl".toList⟩ [] ∧
      Apart "a owl".toList ∧
      Stands false (agree "a owl".toList) [] ⟨['a', 'n'], [' '], "owl".toList⟩ [] ∧
      Phrase.Agrees ⟨['a', 'n'], [' '], "owl".toList⟩ := by
  have place : Stands false (agree "a owl".toList) [] ⟨['a', 'n'], [' '], "owl".toList⟩ [] := by
    rw [agree_owl]
    decide +kernel
  refine ⟨?_, apart_owl, place, (articles_agree_unless_taken _).2 apart_owl _ _ _ place⟩
  refine ((articles_agree_unless_taken _).1 _ _ _ stands_behind_article).resolve_left ?_
  decide

/-- Not every article agrees. -/
theorem article_behind_article_stays :
    ¬ ∀ text before phrase following,
      Stands false (agree text) before phrase following → phrase.Agrees := by
  intro all
  exact absurd (all _ _ _ _ stands_behind_article) (by decide)

end TextGrammar.Article
