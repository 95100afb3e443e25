import TextGrammar.Modifier.Basic
import TextGrammar.Proofs.Modifier.Article
import TextGrammar.Proofs.Modifier.Sentence
import TextGrammar.Proofs.Modifier.Spacing

/-!
The modifiers that documents may name. Main statement: each of them leaves as it is what it has made
of a text; capitals and tidy spacing are described on their own.
-/

namespace TextGrammar.Modifier

theorem ofCharacters_ofCharacters {change : List Char → List Char}
    (settles : ∀ text, change (change text) = change text) (text : String) :
    ∃ once, ofCharacters change text = .ok once ∧ ofCharacters change once = .ok once :=
  ⟨_, rfl, by rw [ofCharacters, String.toList_ofList, settles]⟩

/-- Each modifier changes a text once and for all. Behind the one for capitals no small letter of
ASCII stands where a sentence begins, and it has changed nothing but such letters; behind the one
for spacing no blank stands before punctuation, blanks and tabs stand alone, and nothing but blanks
has gone. -/
theorem named_settle (text : String) :
    (∀ entry ∈ named, ∃ once, entry.2 text = .ok once ∧ entry.2 once = .ok once) ∧
    (∃ capitals : String, (ofName? "englishCapitalization").map (· text) = some (.ok capitals) ∧
      (∀ (index : Nat) (c : Char), capitals.toList[index]? = some c →
        Sentence.Opens (capitals.toList.take index) → c.isLower = false) ∧
      capitals.toList.length = text.toList.length ∧
      ∀ (index : Nat) (c : Char), text.toList[index]? = some c →
        capitals.toList[index]? = some c ∨
          Sentence.Opens (text.toList.take index) ∧ c.isLower = true ∧
            capitals.toList[index]? = some c.toUpper) ∧
    ∃ tidied : String, (ofName? "punctuationCleanup").map (· text) = some (.ok tidied) ∧
      tidied.toList.IsChain Spacing.Tight ∧ tidied.toList.IsChain Spacing.Single ∧
      tidied.toList.filter (!Text.isBlank ·) = text.toList.filter (!Text.isBlank ·) := by
  refine ⟨fun entry member => ?_, ⟨_, rfl, ?_⟩, ⟨_, rfl, ?_⟩⟩
  · have settled : ∀ entry ∈ named, ∃ change, entry.2 = ofCharacters change ∧
        ∀ text, change (change text) = change text := by
      simp only [named, List.forall_mem_cons]
      exact ⟨⟨_, rfl, Article.agree_agree⟩, ⟨_, rfl, Sentence.capitalize_capitalize⟩,
        ⟨_, rfl, Spacing.tidy_tidy⟩, by simp⟩
    obtain ⟨change, same, settles⟩ := settled entry member
    rw [same]
    exact ofCharacters_ofCharacters settles text
  · rw [String.toList_ofList]
    exact ⟨fun index c here opens => Sentence.isLower_of_opens here opens,
      Sentence.length_capitalize _, fun index c here => Sentence.getElem?_capitalize_cases here⟩
  · rw [String.toList_ofList]
    obtain ⟨tight, single⟩ := Spacing.isChain_tidy text.toList
    exact ⟨tight, single, Spacing.filter_tidy _⟩

/-- Capitals that were put stay. -/
theorem named_settle_capitals :
    ofCharacters Sentence.capitalize "oh. no" = .ok "Oh. No" ∧
      ofCharacters Sentence.capitalize "Oh. No" = .ok "Oh. No" := by
  have changed : ofCharacters Sentence.capitalize "oh. no" = .ok "Oh. No" := by cbv
  obtain ⟨once, first, second⟩ := (named_settle "oh. no").1
    ("englishCapitalization", ofCharacters Sentence.capitalize) (by simp [named])
  cases changed.symm.trans first
  exact ⟨changed, second⟩

end TextGrammar.Modifier
