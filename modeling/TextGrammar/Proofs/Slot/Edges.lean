import Mathlib.Data.List.Forall2
import TextGrammar.Proofs.Slot.Filled

/-!
Edges between texts that stand one behind the other. Main statement: if no slot lies across an edge,
the names of the whole are the names of its parts.
-/

namespace TextGrammar.Segment

/-- What stands behind a percent sign that belongs to no slot of a text, if it is the rest of the
text and could be the beginning of a name. -/
def unfinished? : List Char → Option (List Char)
  | [] => none
  | c :: rest =>
    if c = '%' then
      match _found : name? rest with
      | some (_, behind) => unfinished? behind
      | none => if rest.all isNameChar then some rest else unfinished? rest
    else unfinished? rest
termination_by text => text.length
decreasing_by
  · have shorter := name?_length _found; simp; omega
  · simp
  · simp

/-- A slot lies across the edge: it begins at a percent sign that belongs to no slot of the text in
front and ends in the text behind. -/
def Crosses (front back : List Char) : Prop :=
  ∃ begun, unfinished? front = some begun ∧ BeginsSlot ('%' :: (begun ++ back))

/-- No slot lies across an edge between the parts. -/
def Uncrossed : List (List Char) → Prop
  | [] => True
  | part :: rest => ¬ Crosses part rest.flatten ∧ Uncrossed rest

theorem beginsSlot_iff {rest : List Char} : BeginsSlot ('%' :: rest) ↔ (name? rest).isSome := by
  rw [Option.isSome_iff_exists]
  constructor
  · rintro ⟨name, behind, isName, same⟩
    exact ⟨(name, behind), name?_eq_some_iff.mpr ⟨isName, (List.cons.inj same).2⟩⟩
  · rintro ⟨⟨name, behind⟩, found⟩
    obtain ⟨isName, rfl⟩ := name?_eq_some_iff.mp found
    exact ⟨name, behind, isName, rfl⟩

def crosses (front back : List Char) : Bool :=
  (unfinished? front).any fun begun => (name? (begun ++ back)).isSome

theorem crosses_iff {front back : List Char} : crosses front back = true ↔ Crosses front back := by
  simp only [crosses, Crosses, beginsSlot_iff, Option.any_eq_true]

def isUncrossed : List (List Char) → Bool
  | [] => true
  | part :: rest => !crosses part rest.flatten && isUncrossed rest

theorem isUncrossed_iff {parts : List (List Char)} :
    isUncrossed parts = true ↔ Uncrossed parts := by
  induction parts with
  | nil => simp [isUncrossed, Uncrossed]
  | cons part rest ih => simp [isUncrossed, Uncrossed, ih, ← crosses_iff]

instance (parts : List (List Char)) : Decidable (Uncrossed parts) :=
  decidable_of_iff _ isUncrossed_iff

/-! ### Unfinished slots -/

theorem unfinished?_slot {name : List Char} (rest : List Char) (isName : IsName name) :
    unfinished? ('%' :: (name ++ '%' :: rest)) = unfinished? rest := by
  have found : name? (name ++ '%' :: rest) = some (name, rest) :=
    name?_eq_some_iff.mpr ⟨isName, rfl⟩
  rw [unfinished?, if_pos rfl]
  split
  · rename_i name' rest' found'
    rw [found] at found'
    cases found'
    rfl
  · rename_i missing
    rw [found] at missing
    cases missing

theorem unfinished?_plain {c : Char} {rest : List Char} (noSlot : ¬ BeginsSlot (c :: rest)) :
    unfinished? (c :: rest) =
      if c = '%' ∧ rest.all isNameChar then some rest else unfinished? rest := by
  rw [unfinished?]
  by_cases percent : c = '%'
  · rw [if_pos percent]
    split
    · rename_i name behind found
      obtain ⟨isName, rfl⟩ := name?_eq_some_iff.mp found
      exact absurd ⟨name, behind, isName, by rw [percent]⟩ noSlot
    · simp [percent]
  · simp [percent]

theorem unfinished?_of_closed {text : List Char} (closed : Closed text) :
    unfinished? text = none := by
  induction text using scan_induction with
  | done => simp [unfinished?]
  | slot name rest isName ih =>
    rw [unfinished?_slot rest isName, ih ((closed_slot_iff isName).mp closed)]
  | plain c rest noSlot ih =>
    obtain ⟨different, closed⟩ := (closed_plain_iff noSlot).mp closed
    rw [unfinished?_plain noSlot, if_neg (fun both => different both.1), ih closed]

/-- No slot begins in a closed text and ends behind it. -/
theorem not_crosses_of_closed {front : List Char} (closed : Closed front) (back : List Char) :
    ¬ Crosses front back := by
  rintro ⟨begun, found, -⟩
  rw [unfinished?_of_closed closed] at found
  cases found

theorem uncrossed_of_closed {parts : List (List Char)} (closed : ∀ part ∈ parts, Closed part) :
    Uncrossed parts := by
  induction parts with
  | nil => trivial
  | cons part rest ih =>
    exact ⟨not_crosses_of_closed (closed part List.mem_cons_self) _,
      ih fun other member => closed other (List.mem_cons_of_mem _ member)⟩

/-! ### Names -/

/-- A slot that ends behind a text begins at a percent sign with only characters of names behind
it, or else it ends in the text. -/
theorem beginsSlot_of_append {rest back : List Char} (begins : BeginsSlot ('%' :: (rest ++ back)))
    (other : ¬ rest.all isNameChar) : BeginsSlot ('%' :: rest) := by
  obtain ⟨name, behind, isName, whole⟩ := begins
  obtain ⟨-, whole⟩ := List.cons.inj whole
  rcases List.append_eq_append_iff.mp whole with ⟨more, rfl, -⟩ | ⟨more, rfl, same⟩
  · refine absurd (List.all_eq_true.mpr fun c member => ?_) other
    exact isName.2 c (List.mem_append_left _ member)
  · cases more with
    | nil => exact absurd (by simpa using isName.2) other
    | cons c more =>
      rw [List.cons_append] at same
      obtain ⟨percent, -⟩ := List.cons.inj same
      exact ⟨name, more, isName, by rw [percent]⟩

/-- If no slot lies across the edge, both texts have the slots that they have alone. -/
theorem names_append_of_not_crosses {front back : List Char} (apart : ¬ Crosses front back) :
    names (front ++ back) = names front ++ names back := by
  induction front using scan_induction with
  | done => simp [names, ofText]
  | slot name rest isName ih =>
    have rejoined : '%' :: (name ++ '%' :: rest) ++ back =
        '%' :: (name ++ '%' :: (rest ++ back)) := by
      simp
    rw [Crosses, unfinished?_slot rest isName] at apart
    rw [rejoined, names_slot _ isName, names_slot _ isName, ih apart]
    rfl
  | plain c rest noSlot ih =>
    rw [Crosses, unfinished?_plain noSlot] at apart
    have still : ¬ BeginsSlot (c :: (rest ++ back)) := by
      by_cases percent : c = '%'
      · subst percent
        intro begins
        by_cases all : rest.all isNameChar
        · exact apart ⟨rest, by simp [all], begins⟩
        · exact noSlot (beginsSlot_of_append begins all)
      · exact not_beginsSlot_of_ne percent _
    rw [List.cons_append, names_plain still, names_plain noSlot]
    apply ih
    by_cases unfinished : c = '%' ∧ rest.all isNameChar
    · -- only characters of names are left, so no percent sign is
      apply not_crosses_of_closed
      apply closed_of_percent_notMem
      intro member
      exact absurd (List.all_eq_true.mp unfinished.2 _ member) (by decide)
    · rwa [if_neg unfinished] at apart

theorem names_flatten {parts : List (List Char)} (uncrossed : Uncrossed parts) :
    names parts.flatten = parts.flatMap names := by
  induction parts with
  | nil => simp [names, ofText]
  | cons part rest ih =>
    rw [List.flatten_cons, List.flatMap_cons, names_append_of_not_crosses uncrossed.1,
      ih uncrossed.2]

theorem BeginsSlot.append {text : List Char} (begins : BeginsSlot text) (more : List Char) :
    BeginsSlot (text ++ more) := by
  obtain ⟨name, behind, isName, rfl⟩ := begins
  exact ⟨name, behind ++ more, isName, by simp⟩

/-- Characters that stand between slots with another one in front: they were there without it, or it
is the only one. -/
theorem plain_mem_putChar {c : Char} {characters : List Char} {segments : List Segment}
    (member : plain characters ∈ putChar c segments) :
    plain characters ∈ segments ∨
      ∃ back more, characters = c :: back ∧ (back = [] ∨ plain back ∈ segments) ∧
        segments.flatMap written = back ++ more := by
  cases segments with
  | nil =>
    have alone := List.mem_singleton.mp member
    exact .inr ⟨[], [], plain.inj alone, .inl rfl, rfl⟩
  | cons first rest =>
    cases first with
    | plain back =>
      rcases List.mem_cons.mp member with same | member
      · exact .inr ⟨back, _, plain.inj same, .inr List.mem_cons_self, rfl⟩
      · exact .inl (List.mem_cons_of_mem _ member)
    | slot name =>
      rcases List.mem_cons.mp member with same | member
      · exact .inr ⟨[], _, plain.inj same, .inl rfl, rfl⟩
      · exact .inl member

/-- Characters between slots make no slot of their own. -/
theorem names_of_plain_mem {characters text : List Char}
    (member : plain characters ∈ ofText text) : names characters = [] := by
  induction text using scan_induction generalizing characters with
  | done => simp [ofText] at member
  | slot name rest isName ih =>
    rw [ofText_slot rest isName] at member
    exact ih (by simpa using member)
  | plain c rest noSlot ih =>
    rw [ofText_plain noSlot] at member
    rcases plain_mem_putChar member with inside | ⟨back, more, rfl, alone, whole⟩
    · exact ih inside
    · rw [written_ofText] at whole
      rw [whole] at noSlot
      rw [names_plain fun begins => noSlot (begins.append more)]
      rcases alone with rfl | inside
      · simp [names, ofText]
      · exact ih inside

/-! ### Parts of a text whose slots are filled -/

/-- What may stand in the place of a segment. -/
def Replaces (allowed : String → List Char → Prop) : Segment → List Char → Prop
  | plain characters, part => part = characters
  | slot name, part => allowed name part

variable {allowed : String → List Char → Prop} {segments : List Segment}

/-- To fill segments is to put together what stands in their places. -/
theorem fills_iff_exists_parts {text : List Char} :
    Fills allowed segments text ↔
      ∃ parts, List.Forall₂ (Replaces allowed) segments parts ∧ parts.flatten = text := by
  constructor
  · intro fills
    induction fills with
    | done => exact ⟨[], .nil, rfl⟩
    | plain behind ih =>
      obtain ⟨parts, replace, rfl⟩ := ih
      exact ⟨_ :: parts, .cons rfl replace, rfl⟩
    | slot choice behind ih =>
      obtain ⟨parts, replace, rfl⟩ := ih
      exact ⟨_ :: parts, .cons choice replace, rfl⟩
  · rintro ⟨parts, replace, rfl⟩
    induction replace with
    | nil => exact .done
    | @cons segment part rest parts first _ ih =>
      cases segment with
      | plain characters =>
        rw [show part = characters from first]
        exact .plain ih
      | slot name => exact .slot first ih

theorem exists_segment_of_mem {parts : List (List Char)} {part : List Char}
    (replace : List.Forall₂ (Replaces allowed) segments parts) (member : part ∈ parts) :
    ∃ segment ∈ segments, Replaces allowed segment part := by
  induction replace with
  | nil => cases member
  | cons first _ ih =>
    rcases List.mem_cons.mp member with rfl | member
    · exact ⟨_, List.mem_cons_self, first⟩
    · obtain ⟨segment, present, found⟩ := ih member
      exact ⟨segment, List.mem_cons_of_mem _ present, found⟩

/-- If no slot lies across an edge, the names of a filled text are those of what fills it. -/
theorem exists_slot_of_mem_names {text : List Char} {parts : List (List Char)} {name : String}
    (replace : List.Forall₂ (Replaces allowed) (ofText text) parts) (uncrossed : Uncrossed parts)
    (member : name ∈ names parts.flatten) :
    ∃ place value, slot place ∈ ofText text ∧ allowed place value ∧ name ∈ names value := by
  rw [names_flatten uncrossed] at member
  obtain ⟨part, inside, named⟩ := List.mem_flatMap.mp member
  obtain ⟨segment, present, stands⟩ := exists_segment_of_mem replace inside
  cases segment with
  | plain characters =>
    rw [show part = characters from stands, names_of_plain_mem present] at named
    cases named
  | slot place => exact ⟨place, part, present, stands, named⟩

end TextGrammar.Segment
