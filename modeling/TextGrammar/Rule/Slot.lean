/-!
Slots: names between percent signs. Main statement: the segments of a text spell the text.
-/

namespace TextGrammar

/-- A piece of a text: characters that stand for themselves, or a slot. -/
inductive Segment where
  | plain (characters : List Char)
  | slot (name : String)
deriving DecidableEq, Repr

namespace Segment

/-- The characters of a segment as it is written. -/
def written : Segment → List Char
  | plain characters => characters
  | slot name => '%' :: name.toList ++ ['%']

/-- A character of names in slots: an ASCII letter, an ASCII digit or an underscore. -/
def isNameChar (c : Char) : Bool := c.isAlphanum || c = '_'

/-- The name and the rest of a text that goes on, behind a percent sign, with a name and another
percent sign. -/
def name? (text : List Char) : Option (List Char × List Char) :=
  match text.dropWhile isNameChar with
  | '%' :: rest =>
    let name := text.takeWhile isNameChar
    if name.isEmpty then none else some (name, rest)
  | _ => none

theorem name?_eq_some {text name rest : List Char} (found : name? text = some (name, rest)) :
    text = name ++ '%' :: rest := by
  have whole := List.takeWhile_append_dropWhile (p := isNameChar) (l := text)
  unfold name? at found
  split at found
  · rename_i tail same
    simp only at found
    split at found
    · cases found
    · cases found
      rw [← same, whole]
  · cases found

theorem name?_length {text name rest : List Char} (found : name? text = some (name, rest)) :
    rest.length < text.length := by
  rw [name?_eq_some found]; simp; omega

/-- Puts a character in front of segments. -/
def putChar (c : Char) : List Segment → List Segment
  | plain characters :: rest => plain (c :: characters) :: rest
  | segments => plain [c] :: segments

/-- The segments of a text: from the left, each percent sign that begins a slot takes it whole. -/
def ofText : List Char → List Segment
  | [] => []
  | c :: rest =>
    if c = '%' then
      match _found : name? rest with
      | some (name, behind) => slot (String.ofList name) :: ofText behind
      | none => putChar c (ofText rest)
    else putChar c (ofText rest)
termination_by text => text.length
decreasing_by
  · have shorter := name?_length _found; simp; omega
  · simp
  · simp

/-- The names of the slots of a text, from left to right. -/
def names (text : List Char) : List String :=
  (ofText text).filterMap fun
    | slot name => some name
    | plain _ => none

theorem written_putChar (c : Char) (segments : List Segment) :
    (putChar c segments).flatMap written = c :: segments.flatMap written := by
  cases segments with
  | nil => rfl
  | cons first rest => cases first <;> rfl

theorem written_ofText (text : List Char) : (ofText text).flatMap written = text := by
  induction text using ofText.induct with
  | case1 => simp [ofText]
  | case2 rest name behind found ih =>
    rw [ofText, if_pos rfl]
    split
    · rename_i name' behind' found'
      rw [found] at found'
      cases found'
      rw [List.flatMap_cons, ih, name?_eq_some found]
      simp [written]
    · rename_i missing
      rw [found] at missing
      cases missing
  | case3 rest missing ih =>
    rw [ofText, if_pos rfl]
    split
    · rename_i name' behind' found'
      rw [missing] at found'
      cases found'
    · rw [written_putChar, ih]
  | case4 c rest different ih =>
    rw [ofText, if_neg different, written_putChar, ih]

end Segment

end TextGrammar
