import Mathlib.Data.List.Chain
import TextGrammar.Modifier.Spacing

/-!
What tidy spacing is. Main statement: tidying gives a text in which no blank stands before
punctuation and no two blanks or tabs stand side by side, keeps everything but blanks, and changes
nothing in such a text.
-/

namespace TextGrammar.Spacing

open Text

/-- The second character may stand behind the first one: it is no punctuation behind a blank. -/
def Tight (c d : Char) : Prop := isBlank c = true → isPunctuation d = false

/-- The two characters are not both blanks or tabs. -/
def Single (c d : Char) : Prop := isGap c = true → isGap d = false

theorem isBlank_of_isGap {c : Char} (gap : isGap c = true) : isBlank c = true := by
  rcases (by simpa [isGap] using gap : c = ' ' ∨ c = '\t') with rfl | rfl <;> decide

theorem isBlank_of_isPunctuation {c : Char} (mark : isPunctuation c = true) :
    isBlank c = false := by
  have none : ",.!?;:".toList.all (fun c => !isBlank c) := by decide
  simpa using List.all_eq_true.mp none c (List.contains_iff_mem.mp mark)

theorem isPunctuation_of_isGap {c : Char} (gap : isGap c = true) : isPunctuation c = false :=
  Bool.eq_false_iff.mpr fun mark => by
    have filled := isBlank_of_isPunctuation mark
    rw [isBlank_of_isGap gap] at filled
    cases filled

/-! ### Blanks before punctuation -/

theorem leadsToPunctuation_cons {c : Char} {rest : List Char} :
    leadsToPunctuation (c :: rest) =
      if isBlank c then leadsToPunctuation rest else isPunctuation c := by
  rw [leadsToPunctuation, List.dropWhile_cons]
  split <;> simp [leadsToPunctuation]

theorem leadsToPunctuation_of_head {c : Char} {rest : List Char} (mark : isPunctuation c = true) :
    leadsToPunctuation (c :: rest) = true := by
  rw [leadsToPunctuation_cons, if_neg (by simp [isBlank_of_isPunctuation mark]), mark]

/-- Tightening changes nothing in what follows blanks. -/
theorem leadsToPunctuation_tighten (text : List Char) :
    leadsToPunctuation (tighten text) = leadsToPunctuation text := by
  induction text with
  | nil => rfl
  | cons c rest ih =>
    rw [tighten]
    split
    · rename_i dropped
      obtain ⟨blank, leads⟩ := Bool.and_eq_true_iff.mp dropped
      rw [ih, leadsToPunctuation_cons, if_pos blank]
    · rw [leadsToPunctuation_cons, leadsToPunctuation_cons, ih]

theorem isChain_tighten (text : List Char) : (tighten text).IsChain Tight := by
  induction text with
  | nil => exact .nil
  | cons c rest ih =>
    rw [tighten]
    split
    · exact ih
    · rename_i kept
      refine List.isChain_cons.mpr ⟨fun d first blank => ?_, ih⟩
      refine Bool.eq_false_iff.mpr fun mark => kept ?_
      obtain ⟨more, same⟩ := List.head?_eq_some_iff.mp first
      rw [blank, ← leadsToPunctuation_tighten, same, leadsToPunctuation_of_head mark]
      rfl

theorem not_leadsToPunctuation {c : Char} {rest : List Char} (blank : isBlank c = true)
    (tight : (c :: rest).IsChain Tight) : leadsToPunctuation rest = false := by
  induction rest generalizing c with
  | nil => rfl
  | cons d more ih =>
    obtain ⟨beside, behind⟩ := List.isChain_cons_cons.mp tight
    rw [leadsToPunctuation_cons]
    split
    · rename_i also
      exact ih also behind
    · exact beside blank

theorem tighten_of_isChain {text : List Char} (tight : text.IsChain Tight) :
    tighten text = text := by
  induction text with
  | nil => rfl
  | cons c rest ih =>
    have kept : ¬ (isBlank c && leadsToPunctuation rest) = true := fun dropped => by
      obtain ⟨blank, leads⟩ := Bool.and_eq_true_iff.mp dropped
      rw [not_leadsToPunctuation blank tight] at leads
      cases leads
    rw [tighten, if_neg kept, ih tight.of_cons]

/-! ### Runs of blanks and tabs -/

/-- A run of blanks and tabs begins where one began. -/
theorem head?_collapse {text : List Char} {d : Char} (first : (collapse text).head? = some d) :
    ∃ c, text.head? = some c ∧ isGap d = isGap c ∧ (isGap c = false → d = c) := by
  cases text with
  | nil => simp [collapse] at first
  | cons c rest =>
    rw [collapse] at first
    split at first
    · rename_i run
      have gap : isGap c = true := (Bool.and_eq_true_iff.mp run).1
      cases first
      exact ⟨c, rfl, gap.symm, fun none => absurd gap (by simp [none])⟩
    · cases first
      exact ⟨_, rfl, rfl, fun _ => rfl⟩

theorem isChain_single_collapse (text : List Char) : (collapse text).IsChain Single := by
  induction text using collapse.induct with
  | case1 => rw [collapse]; exact .nil
  | case2 c rest run ih =>
    rw [collapse, if_pos run]
    refine List.isChain_cons.mpr ⟨fun d first _ => ?_, ih⟩
    obtain ⟨e, begins, same, -⟩ := head?_collapse first
    have fails := List.head?_dropWhile_not isGap rest
    rw [begins] at fails
    rw [same, fails]
  | case3 c rest alone ih =>
    rw [collapse, if_neg alone]
    refine List.isChain_cons.mpr ⟨fun d first gap => ?_, ih⟩
    obtain ⟨e, begins, same, -⟩ := head?_collapse first
    simpa [gap, begins, same] using alone

theorem isChain_tight_dropWhile {c : Char} {rest : List Char} (gap : isGap c = true)
    (tight : (c :: rest).IsChain Tight) : (' ' :: rest.dropWhile isGap).IsChain Tight := by
  induction rest generalizing c with
  | nil => exact .singleton _
  | cons d more ih =>
    obtain ⟨beside, behind⟩ := List.isChain_cons_cons.mp tight
    rw [List.dropWhile_cons]
    split
    · rename_i also
      exact ih also behind
    · exact .cons_cons (fun _ => beside (isBlank_of_isGap gap)) behind

theorem isChain_tight_collapse {text : List Char} (tight : text.IsChain Tight) :
    (collapse text).IsChain Tight := by
  have cons {c : Char} {rest : List Char} (tight : (c :: rest).IsChain Tight)
      (behind : (collapse rest).IsChain Tight) : (c :: collapse rest).IsChain Tight := by
    refine List.isChain_cons.mpr ⟨fun d first blank => ?_, behind⟩
    obtain ⟨e, begins, same, kept⟩ := head?_collapse first
    cases gap : isGap e with
    | true => exact isPunctuation_of_isGap (same.trans gap)
    | false => exact kept gap ▸ (List.isChain_cons.mp tight).1 e begins blank
  induction text using collapse.induct with
  | case1 => rw [collapse]; exact .nil
  | case2 c rest run ih =>
    have begun := isChain_tight_dropWhile (Bool.and_eq_true_iff.mp run).1 tight
    rw [collapse, if_pos run]
    exact cons begun (ih begun.of_cons)
  | case3 c rest alone ih =>
    rw [collapse, if_neg alone]
    exact cons tight (ih tight.of_cons)

theorem collapse_of_isChain {text : List Char} (single : text.IsChain Single) :
    collapse text = text := by
  induction text with
  | nil => rw [collapse]
  | cons c rest ih =>
    have alone : ¬ (isGap c && rest.head?.any isGap) = true := fun run => by
      obtain ⟨gap, more⟩ := Bool.and_eq_true_iff.mp run
      obtain ⟨d, first, also⟩ := (Option.any_eq_true _ _).mp more
      rw [(List.isChain_cons.mp single).1 d first gap] at also
      cases also
    rw [collapse, if_neg alone, ih single.of_cons]

/-! ### What is kept -/

theorem filter_tighten (text : List Char) :
    (tighten text).filter (!isBlank ·) = text.filter (!isBlank ·) := by
  induction text with
  | nil => rfl
  | cons c rest ih =>
    rw [tighten]
    split
    · rename_i dropped
      rw [ih, List.filter_cons_of_neg (by simp [(Bool.and_eq_true_iff.mp dropped).1])]
    · rw [List.filter_cons, List.filter_cons, ih]

theorem filter_dropWhile_isGap (text : List Char) :
    (text.dropWhile isGap).filter (!isBlank ·) = text.filter (!isBlank ·) := by
  induction text with
  | nil => rfl
  | cons c rest ih =>
    rw [List.dropWhile_cons]
    split
    · rename_i gap
      rw [ih, List.filter_cons_of_neg (by simp [isBlank_of_isGap gap])]
    · rfl

theorem filter_collapse (text : List Char) :
    (collapse text).filter (!isBlank ·) = text.filter (!isBlank ·) := by
  induction text using collapse.induct with
  | case1 => rw [collapse]
  | case2 c rest run ih =>
    have blank := isBlank_of_isGap (Bool.and_eq_true_iff.mp run).1
    rw [collapse, if_pos run, List.filter_cons_of_neg (by decide), ih, filter_dropWhile_isGap,
      List.filter_cons_of_neg (by simp [blank])]
  | case3 c rest alone ih =>
    rw [collapse, if_neg alone, List.filter_cons, List.filter_cons, ih]

/-! ### Tidy texts -/

/-- Everything but blanks is kept. -/
theorem filter_tidy (text : List Char) :
    (tidy text).filter (!isBlank ·) = text.filter (!isBlank ·) := by
  rw [tidy, filter_collapse, filter_tighten]

/-- In a tidy text no blank stands before punctuation, and no two characters side by side are both
blanks or tabs. -/
theorem isChain_tidy (text : List Char) :
    (tidy text).IsChain Tight ∧ (tidy text).IsChain Single :=
  ⟨isChain_tight_collapse (isChain_tighten text), isChain_single_collapse _⟩

theorem tidy_of_isChain {text : List Char} (tight : text.IsChain Tight)
    (single : text.IsChain Single) : tidy text = text := by
  rw [tidy, tighten_of_isChain tight, collapse_of_isChain single]

theorem tidy_tidy (text : List Char) : tidy (tidy text) = tidy text :=
  tidy_of_isChain (isChain_tidy text).1 (isChain_tidy text).2

end TextGrammar.Spacing
