import TextGrammar.Json.Reader
import TextGrammar.Proofs.Effect
import TextGrammar.Proofs.Value.Short

/-!
What JSON texts denote. Main statement: a value that has been read from a text holds no number with
too many digits, so whatever it is made of has a text.
-/

namespace TextGrammar

/-- What holds of all keys and all values that are put into a map holds of all of its entries. -/
theorem Fields.forall_mem_ofList {key : Scalar → Prop} {value : Value → Prop}
    {entries : List (Scalar × Value)} (each : ∀ entry ∈ entries, key entry.1 ∧ value entry.2) :
    ∀ entry ∈ ofList entries, key entry.1 ∧ value entry.2 := by
  have put {name : Scalar} {content : Value} (named : key name) (meets : value content)
      (fields : Fields) (before : ∀ entry ∈ fields, key entry.1 ∧ value entry.2) :
      ∀ entry ∈ put name content fields, key entry.1 ∧ value entry.2 := by
    induction fields with
    | nil => exact List.forall_mem_singleton.mpr ⟨named, meets⟩
    | cons first rest ih =>
      obtain ⟨first, rest'⟩ := List.forall_mem_cons.mp before
      rw [Fields.put]
      split
      · exact List.forall_mem_cons.mpr ⟨⟨first.1, meets⟩, rest'⟩
      · exact List.forall_mem_cons.mpr ⟨first, ih rest'⟩
  have fold (fields : Fields) (before : ∀ entry ∈ fields, key entry.1 ∧ value entry.2) :
      ∀ entry ∈ entries.foldl (fun fields entry => Fields.put entry.1 entry.2 fields) fields,
        key entry.1 ∧ value entry.2 := by
    induction entries generalizing fields with
    | nil => exact before
    | cons entry rest ih =>
      obtain ⟨first, others⟩ := List.forall_mem_cons.mp each
      exact ih others _ (put first.1 first.2 fields before)
  exact fold [] (List.forall_mem_nil _)

namespace Json

open Effect

/-! ### Words and numbers -/

theorem isDigit_of_mem_wholeDigits {text : List Char} :
    ∀ c ∈ (wholeDigits text).1, c.isDigit = true := by
  intro c member
  unfold wholeDigits at member
  split at member
  · obtain rfl := List.mem_singleton.mp member
    decide
  · exact List.all_eq_true.mp List.all_takeWhile c member

theorem isDigit_of_numeral? {text rest : List Char} {numeral : Numeral}
    (read : numeral? text = some (numeral, rest)) : ∀ c ∈ numeral.whole, c.isDigit = true := by
  unfold numeral? at read
  split at read
  dsimp only at read
  split at read
  · cases read
  · cases read
    exact isDigit_of_mem_wholeDigits

theorem short_scaled (negative : Bool) (digits : Nat) (exponent : Int) :
    (Number.real (TextGrammar.Numeral.scaled negative digits exponent)).Short := by
  have zero (negative : Bool) : (Number.real (.zero negative)).Short :=
    Number.short_ofQuotient negative 0 Nat.one_pos
  unfold TextGrammar.Numeral.scaled
  dsimp only
  split
  · exact zero negative
  · split
    · intro whole same
      cases same
    · split
      · exact zero negative
      · split
        · exact Number.short_ofQuotient _ _ Nat.one_pos
        · exact Number.short_ofQuotient _ _ (Nat.pow_pos (by decide))

theorem Numeral.short {numeral : Numeral} {number : Number}
    (digits : ∀ c ∈ numeral.whole, c.isDigit = true) (denotes : numeral.number = .ok number) :
    number.Short := by
  unfold Numeral.number at denotes
  split at denotes
  · split at denotes
    · cases denotes
    · rename_i few
      cases denotes
      exact Number.short_int.mpr
        (TextGrammar.Numeral.short_digits digits (not_lt.mp few) numeral.negative)
  · cases denotes
    exact short_scaled _ _ _

theorem short_of_mem_words {word : String} {value : Value} (member : (word, value) ∈ words) :
    value.Short := by
  simp only [words, List.mem_cons, Prod.mk.injEq, List.not_mem_nil, or_false] at member
  rcases member with ⟨-, rfl⟩ | ⟨-, rfl⟩ | ⟨-, rfl⟩ | ⟨-, rfl⟩ | ⟨-, rfl⟩ | ⟨-, rfl⟩
  · exact .scalar trivial
  · exact .scalar trivial
  · exact .scalar trivial
  all_goals
    refine .scalar fun whole same => ?_
    cases same

theorem short_of_plain {text rest : List Char} {value : Value}
    (read : plain text = .ok (value, rest)) : value.Short := by
  unfold plain at read
  split at read
  · rename_i found given
    cases read
    obtain ⟨⟨word, content⟩, member, is⟩ := List.exists_of_findSome?_eq_some given
    obtain ⟨behind, -, same⟩ := Option.map_eq_some_iff.mp is
    cases same
    exact short_of_mem_words member
  · split at read
    · rename_i numeral behind found
      cases denotes : numeral.number with
      | error stop =>
        rw [denotes] at read
        cases read
      | ok number =>
        rw [denotes] at read
        cases read
        exact .scalar (Numeral.short (isDigit_of_numeral? found) denotes)
    · cases read

/-! ### Values -/

/-- What is read from the front of a text, if something is, has a property. -/
def Reads {α : Type} (outcome : Except Stop (α × List Char)) (property : α → Prop) : Prop :=
  ∀ found rest, outcome = .ok (found, rest) → property found

theorem reads_map {α β : Type} {outcome : Except Stop (α × List Char)} {property : β → Prop}
    (change : α → β) (reads : Reads outcome fun found => property (change found)) :
    Reads (outcome.map fun found => (change found.1, found.2)) property := by
  rintro found rest same
  cases outcome with
  | error stop => cases same
  | ok given =>
    cases same
    exact reads _ _ rfl

theorem Stop.not_ok {α : Type} {stop : Stop} {property : α → Prop} :
    Reads (.error stop : Except Stop (α × List Char)) property := by
  rintro found rest same
  cases same

/-- With this fuel, the readers of values, of items and of entries make no number with too many
digits. -/
structure ShortReads (fuel : Nat) : Prop where
  value (text : List Char) : Reads (Json.value fuel text) Value.Short
  items (text : List Char) : Reads (Json.items fuel text) (∀ item ∈ ·, item.Short)
  members (text : List Char) :
    Reads (Json.members fuel text) (∀ entry ∈ ·, entry.1.Short ∧ entry.2.Short)

variable {fuel : Nat}

theorem ShortReads.value_succ (short : ShortReads fuel) (text : List Char) :
    Reads (Json.value (fuel + 1) text) Value.Short := by
  unfold Json.value
  split
  · exact reads_map Value.str fun _ _ _ => Value.short_str _
  · split
    · rintro found rest same
      cases same
      exact .list (List.forall_mem_nil _)
    · exact reads_map Value.list fun items rest read => .list (short.items _ items rest read)
  · split
    · rintro found rest same
      cases same
      exact .map (List.forall_mem_nil _) (List.forall_mem_nil _)
    · refine reads_map (fun entries => Value.map (Fields.ofList entries)) ?_
      intro entries rest read
      have each := Fields.forall_mem_ofList (short.members _ entries rest read)
      exact .map (fun entry member => (each entry member).1)
        fun entry member => (each entry member).2
  · exact fun found rest => short_of_plain

theorem ShortReads.items_succ (short : ShortReads fuel) (text : List Char) :
    Reads (Json.items (fuel + 1) text) (∀ item ∈ ·, item.Short) := by
  intro found rest read
  unfold Json.items at read
  obtain ⟨⟨item, behind⟩, first, read⟩ := bind_eq_ok.mp read
  have head := short.value text item behind first
  dsimp only at read
  split at read
  · cases read
    exact List.forall_mem_singleton.mpr head
  · obtain ⟨⟨more, last⟩, others, read⟩ := bind_eq_ok.mp read
    cases read
    exact List.forall_mem_cons.mpr ⟨head, short.items _ more last others⟩
  · cases read

theorem ShortReads.members_succ (short : ShortReads fuel) (text : List Char) :
    Reads (Json.members (fuel + 1) text) (∀ entry ∈ ·, entry.1.Short ∧ entry.2.Short) := by
  intro found rest read
  unfold Json.members at read
  split at read
  · obtain ⟨⟨name, behind⟩, -, read⟩ := bind_eq_ok.mp read
    dsimp only at read
    split at read
    · obtain ⟨⟨content, later⟩, first, read⟩ := bind_eq_ok.mp read
      have head := short.value _ content later first
      dsimp only at read
      split at read
      · cases read
        exact List.forall_mem_singleton.mpr ⟨trivial, head⟩
      · obtain ⟨⟨more, last⟩, others, read⟩ := bind_eq_ok.mp read
        cases read
        exact List.forall_mem_cons.mpr ⟨⟨trivial, head⟩, short.members _ more last others⟩
      · cases read
    · cases read
  · cases read

/-- The readers make no number with too many digits, whatever the fuel. -/
theorem shortReads (fuel : Nat) : ShortReads fuel := by
  induction fuel with
  | zero => exact ⟨fun _ => Stop.not_ok, fun _ => Stop.not_ok, fun _ => Stop.not_ok⟩
  | succ fuel ih => exact ⟨ih.value_succ, ih.items_succ, ih.members_succ⟩

/-- A value that a JSON text denotes holds no number with too many digits. -/
theorem short_of_read {text : String} {value : Value} (denotes : read text = .ok value) :
    value.Short := by
  unfold read at denotes
  dsimp only at denotes
  split at denotes
  · rename_i found given
    cases denotes
    unfold document at given
    dsimp only at given
    split at given
    · cases given
    obtain ⟨⟨content, behind⟩, read, given⟩ := bind_eq_ok.mp given
    have short := (shortReads _).value _ content behind read
    dsimp only at given
    split at given
    · cases given
      exact short
    · cases given
  · cases denotes
  · cases denotes

end Json

end TextGrammar
