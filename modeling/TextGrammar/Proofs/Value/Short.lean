import TextGrammar.Proofs.Effect
import TextGrammar.Proofs.Number.Short
import TextGrammar.Value.Text

/-!
Values that hold no number with too many digits. Main statements: such a value has a text, what it
is made of is of the same kind, and the integer that it stands for has a text.
-/

namespace TextGrammar

/-- The scalar is no number with too many digits. -/
def Scalar.Short : Scalar → Prop
  | number value => value.Short
  | _ => True

/-- No scalar in the value is a number with too many digits. -/
inductive Value.Short : Value → Prop where
  | scalar {content : Scalar} (short : content.Short) : Short (.scalar content)
  | list {items : List Value} (each : ∀ item ∈ items, Short item) : Short (.list items)
  | map {entries : Fields} (keys : ∀ entry ∈ entries, entry.1.Short)
      (values : ∀ entry ∈ entries, Short entry.2) : Short (.map entries)

/-! ### Texts -/

theorem Scalar.Short.quoted {content : Scalar} (short : content.Short) :
    ∃ text, content.quoted = .ok text := by
  cases content with
  | number value =>
    cases value with
    | int value => exact ⟨_, Numeral.text_of_short (Number.short_int.mp short)⟩
    | real => exact ⟨_, rfl⟩
  | null | bool | str | stamp | binary => exact ⟨_, rfl⟩

theorem Scalar.Short.text {content : Scalar} (short : content.Short) :
    ∃ text, content.text = .ok text := by
  cases content with
  | str | stamp => exact ⟨_, rfl⟩
  | null | bool | number | binary => exact short.quoted

namespace Value

theorem quotedItems_of_each {items : List Value}
    (each : ∀ item ∈ items, ∃ text, item.quoted = .ok text) :
    ∃ texts, quotedItems items = .ok texts := by
  induction items with
  | nil => exact ⟨[], rfl⟩
  | cons item rest ih =>
    obtain ⟨first, quoted⟩ := each item List.mem_cons_self
    obtain ⟨more, others⟩ := ih fun other member => each other (List.mem_cons_of_mem _ member)
    exact ⟨first :: more, by simp [quotedItems, quoted, others]⟩

theorem quotedEntries_of_each {entries : Fields}
    (keys : ∀ entry ∈ entries, ∃ text, entry.1.quoted = .ok text)
    (values : ∀ entry ∈ entries, ∃ text, entry.2.quoted = .ok text) :
    ∃ texts, quotedEntries entries = .ok texts := by
  induction entries with
  | nil => exact ⟨[], rfl⟩
  | cons entry rest ih =>
    obtain ⟨name, key⟩ := keys entry List.mem_cons_self
    obtain ⟨first, value⟩ := values entry List.mem_cons_self
    obtain ⟨more, others⟩ := ih (fun other member => keys other (List.mem_cons_of_mem _ member))
      fun other member => values other (List.mem_cons_of_mem _ member)
    exact ⟨(name ++ ": " ++ first) :: more, by simp [quotedEntries, key, value, others]⟩

theorem Short.quoted {value : Value} (short : value.Short) : ∃ text, value.quoted = .ok text := by
  induction short with
  | scalar short => exact short.quoted
  | list _ ih =>
    obtain ⟨texts, quoted⟩ := quotedItems_of_each ih
    exact ⟨_, by simp only [Value.quoted, quoted]; rfl⟩
  | map keys _ ih =>
    obtain ⟨texts, quoted⟩ :=
      quotedEntries_of_each (fun entry member => (keys entry member).quoted) ih
    exact ⟨_, by simp only [Value.quoted, quoted]; rfl⟩

theorem Short.text {value : Value} (short : value.Short) : ∃ text, value.text = .ok text := by
  cases short with
  | scalar short => exact short.text
  | list each => exact (Short.list each).quoted
  | map keys values => exact (Short.map keys values).quoted

/-! ### What a value is made of -/

theorem short_str (text : String) : (str text).Short := .scalar trivial

theorem short_null : Value.null.Short := .scalar trivial

theorem Short.elements {value : Value} (short : value.Short) {items : List Value}
    (given : value.elements = .ok items) : ∀ item ∈ items, item.Short := by
  cases short with
  | list each =>
    cases given
    exact each
  | map keys values =>
    cases given
    intro item member
    obtain ⟨entry, present, rfl⟩ := List.mem_map.mp member
    exact .scalar (keys entry present)
  | @scalar content short =>
    cases content with
    | null | bool | number | stamp => cases given
    | str text =>
      cases given
      intro item member
      obtain ⟨c, -, rfl⟩ := List.mem_map.mp member
      exact short_str _
    | binary bytes =>
      cases given
      intro item member
      obtain ⟨byte, -, rfl⟩ := List.mem_map.mp member
      have small : byte.toNat < 10 ^ 3 := byte.toNat_lt.trans (by decide)
      exact .scalar (Number.short_int.mpr (Numeral.short_of_lt small))

theorem Short.entries {entries : Fields} (short : (Value.map entries).Short) :
    ∀ entry ∈ entries, entry.1.Short ∧ entry.2.Short := by
  cases short with
  | map keys values => exact fun entry member => ⟨keys entry member, values entry member⟩

theorem Short.get {entries : Fields} (short : (Value.map entries).Short) (key : String) :
    (entries.get key).Short := by
  unfold Fields.get Fields.get? Fields.find?
  cases found : List.find? (fun entry => entry.1.same (.str key)) entries with
  | none => exact short_null
  | some entry => exact (short.entries entry (List.mem_of_find?_eq_some found)).2

theorem Short.fieldsOrEmpty {value : Value} (short : value.Short) :
    (Value.map value.fieldsOrEmpty).Short := by
  cases short with
  | map keys values => exact .map keys values
  | scalar | list => exact .map (List.forall_mem_nil _) (List.forall_mem_nil _)

/-- The integer that the value stands for has a text. -/
theorem Short.toInt {value : Value} (short : value.Short) {whole : Int}
    (given : value.toInt = .ok whole) : Numeral.Short whole := by
  unfold Value.toInt at given
  split at given
  · split at given
    · rename_i denotes
      cases given
      exact Numeral.short_of_integer? denotes
    · cases given
  · cases short with
    | list | map => cases given
    | @scalar content short =>
      cases content with
      | number value => exact short whole given
      | bool value =>
        cases given
        exact Numeral.short_of_lt (lt_of_le_of_lt (Bool.toNat_le value) (by decide))
      | null | str | stamp | binary => cases given

end Value

end TextGrammar
