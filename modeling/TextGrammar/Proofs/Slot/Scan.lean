import TextGrammar.Rule.Slot

/-!
How a text is scanned for slots, from the left: a slot at the front is taken whole, any other
character is passed by. A text is closed if all its percent signs belong to slots; closed texts
that are put one behind the other make a closed text.
-/

namespace TextGrammar.Segment

/-- A name of slots: at least one character, all of them characters of names. -/
def IsName (name : List Char) : Prop := name ≠ [] ∧ ∀ c ∈ name, isNameChar c

/-- A slot stands at the front of a text. -/
def BeginsSlot (text : List Char) : Prop :=
  ∃ name rest, IsName name ∧ text = '%' :: (name ++ '%' :: rest)

theorem name?_eq_some_iff {text name rest : List Char} :
    name? text = some (name, rest) ↔ IsName name ∧ text = name ++ '%' :: rest := by
  constructor
  · intro found
    refine ⟨?_, name?_eq_some found⟩
    unfold name? at found
    split at found
    · simp only at found
      split at found
      · cases found
      · rename_i someName
        cases found
        refine ⟨by simpa using someName, fun c member => ?_⟩
        exact List.all_eq_true.mp List.all_takeWhile c member
    · cases found
  · rintro ⟨⟨someName, characters⟩, rfl⟩
    have front : (name ++ '%' :: rest).takeWhile isNameChar = name := by
      rw [List.takeWhile_append_of_pos characters]
      simp [isNameChar]
    have back : (name ++ '%' :: rest).dropWhile isNameChar = '%' :: rest := by
      rw [List.dropWhile_append_of_pos characters]
      simp [isNameChar]
    simp [name?, front, back, someName]

theorem ofText_slot {name : List Char} (rest : List Char) (isName : IsName name) :
    ofText ('%' :: (name ++ '%' :: rest)) = slot (String.ofList name) :: ofText rest := by
  have found : name? (name ++ '%' :: rest) = some (name, rest) :=
    name?_eq_some_iff.mpr ⟨isName, rfl⟩
  rw [ofText, if_pos rfl]
  split
  · rename_i name' rest' found'
    rw [found] at found'
    cases found'
    rfl
  · rename_i missing
    rw [found] at missing
    cases missing

theorem ofText_plain {c : Char} {rest : List Char} (noSlot : ¬ BeginsSlot (c :: rest)) :
    ofText (c :: rest) = putChar c (ofText rest) := by
  rw [ofText]
  split
  · rename_i percent
    split
    · rename_i name behind found
      obtain ⟨isName, rfl⟩ := name?_eq_some_iff.mp found
      exact absurd ⟨name, behind, isName, by rw [percent]⟩ noSlot
    · rfl
  · rfl

/-- Induction over a text as it is scanned. -/
theorem scan_induction {motive : List Char → Prop} (done : motive [])
    (slot : ∀ name rest, IsName name → motive rest → motive ('%' :: (name ++ '%' :: rest)))
    (plain : ∀ c rest, ¬ BeginsSlot (c :: rest) → motive rest → motive (c :: rest))
    (text : List Char) : motive text := by
  induction text using ofText.induct with
  | case1 => exact done
  | case2 rest name behind found ih =>
    obtain ⟨isName, rfl⟩ := name?_eq_some_iff.mp found
    exact slot name behind isName ih
  | case3 rest missing ih =>
    refine plain '%' rest ?_ ih
    rintro ⟨name, behind, isName, same⟩
    rw [name?_eq_some_iff.mpr ⟨isName, (List.cons.inj same).2⟩] at missing
    cases missing
  | case4 c rest different ih =>
    refine plain c rest ?_ ih
    rintro ⟨name, behind, isName, same⟩
    exact different (List.cons.inj same).1

theorem not_beginsSlot_of_ne {c : Char} (different : c ≠ '%') (rest : List Char) :
    ¬ BeginsSlot (c :: rest) := by
  rintro ⟨name, behind, isName, same⟩
  exact different (List.cons.inj same).1

/-! ### Names -/

theorem mem_names_iff {text : List Char} {name : String} :
    name ∈ names text ↔ slot name ∈ ofText text := by
  rw [names, List.mem_filterMap]
  constructor
  · rintro ⟨segment, member, same⟩
    cases segment with
    | plain characters => cases same
    | slot other =>
      cases same
      exact member
  · intro member
    exact ⟨slot name, member, rfl⟩

theorem names_slot {name : List Char} (rest : List Char) (isName : IsName name) :
    names ('%' :: (name ++ '%' :: rest)) = String.ofList name :: names rest := by
  rw [names, ofText_slot rest isName]
  rfl

theorem names_plain {c : Char} {rest : List Char} (noSlot : ¬ BeginsSlot (c :: rest)) :
    names (c :: rest) = names rest := by
  rw [names, ofText_plain noSlot, names]
  cases ofText rest with
  | nil => rfl
  | cons first segments => cases first <;> rfl

/-! ### Closed texts -/

/-- Every percent sign of the text belongs to a slot. -/
def Closed (text : List Char) : Prop :=
  ∀ characters, plain characters ∈ ofText text → '%' ∉ characters

def isClosed (text : List Char) : Bool :=
  (ofText text).all fun
    | plain characters => !characters.contains '%'
    | slot _ => true

theorem isClosed_iff {text : List Char} : isClosed text = true ↔ Closed text := by
  rw [isClosed, List.all_eq_true, Closed]
  constructor
  · intro all characters member
    simpa using all _ member
  · intro closed segment member
    cases segment with
    | slot name => rfl
    | plain characters => simpa using closed characters member

instance (text : List Char) : Decidable (Closed text) := decidable_of_iff _ isClosed_iff

theorem closed_nil : Closed [] := by simp [Closed, ofText]

theorem closed_slot_iff {name rest : List Char} (isName : IsName name) :
    Closed ('%' :: (name ++ '%' :: rest)) ↔ Closed rest := by
  simp [Closed, ofText_slot rest isName]

theorem closed_plain_iff {c : Char} {rest : List Char} (noSlot : ¬ BeginsSlot (c :: rest)) :
    Closed (c :: rest) ↔ c ≠ '%' ∧ Closed rest := by
  rw [Closed, Closed, ofText_plain noSlot]
  cases ofText rest with
  | nil => simp [putChar, eq_comm]
  | cons first segments =>
    cases first with
    | plain characters =>
      simp only [putChar, List.mem_cons, plain.injEq, forall_eq_or_imp]
      simp [eq_comm, and_assoc]
    | slot name => simp [putChar, eq_comm]

theorem closed_of_percent_notMem {text : List Char} (absent : '%' ∉ text) : Closed text := by
  induction text with
  | nil => exact closed_nil
  | cons c rest ih =>
    obtain ⟨different, absent⟩ : '%' ≠ c ∧ '%' ∉ rest := by simpa using absent
    have noSlot := not_beginsSlot_of_ne different.symm rest
    exact (closed_plain_iff noSlot).mpr ⟨different.symm, ih absent⟩

theorem names_of_percent_notMem {text : List Char} (absent : '%' ∉ text) : names text = [] := by
  induction text with
  | nil => simp [names, ofText]
  | cons c rest ih =>
    obtain ⟨different, absent⟩ : '%' ≠ c ∧ '%' ∉ rest := by simpa using absent
    rw [names_plain (not_beginsSlot_of_ne different.symm rest), ih absent]

theorem isName_of_mem_ofText {name : String} {text : List Char} (member : slot name ∈ ofText text) :
    IsName name.toList := by
  induction text using scan_induction with
  | done => simp [ofText] at member
  | slot found rest isName ih =>
    rw [ofText_slot rest isName] at member
    rcases List.mem_cons.mp member with same | member
    · rw [slot.inj same]
      simpa using isName
    · exact ih member
  | plain c rest noSlot ih =>
    rw [ofText_plain noSlot] at member
    refine ih ?_
    cases pieces : ofText rest with
    | nil => simp [pieces, putChar] at member
    | cons first more =>
      rw [pieces] at member
      cases first <;> simpa [putChar] using member

/-- A slot that is written out has its own name and no other. -/
theorem names_written {name : String} (isName : IsName name.toList) :
    names (slot name).written = [name] := by
  have spelled : (slot name).written = '%' :: (name.toList ++ '%' :: []) := by simp [written]
  rw [spelled, names_slot [] isName, String.ofList_toList]
  simp [names, ofText]

theorem closed_written {name : String} (isName : IsName name.toList) :
    Closed (slot name).written := by
  have spelled : (slot name).written = '%' :: (name.toList ++ '%' :: []) := by simp [written]
  rw [spelled, closed_slot_iff isName]
  exact closed_nil

theorem closed_append {text behind : List Char} (closed : Closed text) (more : Closed behind) :
    Closed (text ++ behind) := by
  induction text using scan_induction with
  | done => exact more
  | slot name rest isName ih =>
    have rejoined : '%' :: (name ++ '%' :: rest) ++ behind =
        '%' :: (name ++ '%' :: (rest ++ behind)) := by
      simp
    rw [rejoined, closed_slot_iff isName]
    exact ih ((closed_slot_iff isName).mp closed)
  | plain c rest noSlot ih =>
    obtain ⟨different, closed⟩ := (closed_plain_iff noSlot).mp closed
    rw [List.cons_append, closed_plain_iff (not_beginsSlot_of_ne different _)]
    exact ⟨different, ih closed⟩

end TextGrammar.Segment
