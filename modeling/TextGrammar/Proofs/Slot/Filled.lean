import TextGrammar.Proofs.Slot.Scan

/-!
Filling the slots of a text: each slot is replaced by something that is allowed for its name, each
other character stays. Filling is stated over the characters of a text and agrees with filling its
segments one after the other.
-/

namespace TextGrammar.Segment

/-- A text with its slots filled, from the left. What fills a slot is not scanned again. -/
inductive Filled (allowed : String → List Char → Prop) : List Char → List Char → Prop where
  | done : Filled allowed [] []
  | slot {name rest value more : List Char} (isName : IsName name)
      (choice : allowed (String.ofList name) value) (behind : Filled allowed rest more) :
      Filled allowed ('%' :: (name ++ '%' :: rest)) (value ++ more)
  | plain {c : Char} {rest more : List Char} (noSlot : ¬ BeginsSlot (c :: rest))
      (behind : Filled allowed rest more) : Filled allowed (c :: rest) (c :: more)

/-- Segments with their slots filled. -/
inductive Fills (allowed : String → List Char → Prop) : List Segment → List Char → Prop where
  | done : Fills allowed [] []
  | plain {characters more : List Char} {rest : List Segment} (behind : Fills allowed rest more) :
      Fills allowed (.plain characters :: rest) (characters ++ more)
  | slot {name : String} {value more : List Char} {rest : List Segment}
      (choice : allowed name value) (behind : Fills allowed rest more) :
      Fills allowed (.slot name :: rest) (value ++ more)

variable {allowed : String → List Char → Prop}

theorem fills_putChar {c : Char} {segments : List Segment} {text : List Char} :
    Fills allowed (putChar c segments) text ↔
      ∃ more, text = c :: more ∧ Fills allowed segments more := by
  constructor
  · intro fills
    cases segments with
    | nil =>
      cases fills with
      | plain behind => exact ⟨_, rfl, behind⟩
    | cons first rest =>
      cases first with
      | plain characters =>
        cases fills with
        | plain behind => exact ⟨_, rfl, .plain behind⟩
      | slot name =>
        cases fills with
        | plain behind => exact ⟨_, rfl, behind⟩
  · rintro ⟨more, rfl, fills⟩
    cases segments with
    | nil =>
      show Fills allowed (.plain [c] :: []) ([c] ++ more)
      exact .plain fills
    | cons first rest =>
      cases first with
      | plain characters =>
        cases fills with
        | plain behind =>
          show Fills allowed (.plain (c :: characters) :: rest) ((c :: characters) ++ _)
          exact .plain behind
      | slot name =>
        show Fills allowed (.plain [c] :: .slot name :: rest) ([c] ++ more)
        exact .plain fills

theorem filled_iff_fills {text filled : List Char} :
    Filled allowed text filled ↔ Fills allowed (ofText text) filled := by
  constructor
  · intro fills
    induction fills with
    | done =>
      rw [ofText]
      exact .done
    | slot isName choice behind ih =>
      rw [ofText_slot _ isName]
      exact .slot choice ih
    | plain noSlot behind ih =>
      rw [ofText_plain noSlot, fills_putChar]
      exact ⟨_, rfl, ih⟩
  · intro fills
    induction text using scan_induction generalizing filled with
    | done =>
      rw [ofText] at fills
      cases fills
      exact .done
    | slot name rest isName ih =>
      rw [ofText_slot rest isName] at fills
      cases fills with
      | slot choice behind => exact .slot isName choice (ih behind)
    | plain c rest noSlot ih =>
      rw [ofText_plain noSlot, fills_putChar] at fills
      obtain ⟨more, rfl, fills⟩ := fills
      exact .plain noSlot (ih fills)

/-! ### Filling closed texts with closed ones -/

section

variable {segments : List Segment} {text : List Char}
  (others : ∀ characters, plain characters ∈ segments → '%' ∉ characters)

include others

theorem percent_notMem_of_fills (each : ∀ name value, allowed name value → '%' ∉ value)
    (fills : Fills allowed segments text) : '%' ∉ text := by
  induction fills with
  | done => simp
  | plain behind ih =>
    have absent := others _ List.mem_cons_self
    simpa using ⟨absent, ih fun characters member => others characters (.tail _ member)⟩
  | slot choice behind ih =>
    have absent := each _ _ choice
    simpa using ⟨absent, ih fun characters member => others characters (.tail _ member)⟩

variable (each : ∀ name value, slot name ∈ segments → allowed name value → Closed value)

include each

theorem closed_of_fills (fills : Fills allowed segments text) : Closed text := by
  induction fills with
  | done => exact closed_nil
  | plain behind ih =>
    refine closed_append (closed_of_percent_notMem (others _ List.mem_cons_self)) ?_
    exact ih (fun characters member => others characters (.tail _ member))
      fun name value member => each name value (.tail _ member)
  | slot choice behind ih =>
    refine closed_append (each _ _ List.mem_cons_self choice) ?_
    exact ih (fun characters member => others characters (.tail _ member))
      fun name value member => each name value (.tail _ member)

end

end TextGrammar.Segment
