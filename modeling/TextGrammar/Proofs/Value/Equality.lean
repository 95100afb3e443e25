import TextGrammar.Proofs.Number.Order
import TextGrammar.Value.Order

/-!
Equality of values. Main statement: equal values are equal to the same values.
-/

namespace TextGrammar

/-! ### Scalars -/

namespace Scalar

/-- The place of the numeric value, or that of a stamp on its scale. -/
def place? : Scalar → Option (Number.Line ⊕ Stamp.Scale × Int)
  | stamp value => some (.inr (value.scale, value.place))
  | scalar => (scalar.number?.bind Number.place?).map .inl

/-- What stands among the numbers has a numeric value. -/
theorem exists_number_of_place? {x : Scalar} {line : Number.Line}
    (here : x.place? = some (.inl line)) : ∃ number, x.number? = some number ∧
      number.place? = some line := by
  cases x with
  | stamp => simp [place?] at here
  | null | bool | number | str | binary =>
    simpa [place?, Option.bind_eq_some_iff] using here

theorem exists_stamp_of_place? {x : Scalar} {place : Stamp.Scale × Int}
    (here : x.place? = some (.inr place)) : ∃ value, x = .stamp value := by
  cases x with
  | stamp value => exact ⟨value, rfl⟩
  | null | bool | number | str | binary => simp [place?, Option.bind_eq_some_iff] at here

/-- Scalars are the same if they are identical without a numeric value, or have one place. -/
theorem same_iff {x y : Scalar} :
    x.same y = true ↔
      x = y ∧ x.number? = none ∨ ∃ place, x.place? = some place ∧ y.place? = some place := by
  cases x <;> cases y <;>
    simp [same, number?, place?, Number.compare?_eq_eq_iff, Stamp.same]
  case stamp.stamp x y =>
    -- the same stamp stands at the same place
    grind

theorem same_comm (x y : Scalar) : x.same y = y.same x := by
  refine Bool.eq_iff_iff.mpr ?_
  rw [same_iff, same_iff]
  grind

theorem same_trans {x y z : Scalar} (first : x.same y = true) (second : y.same z = true) :
    x.same z = true := by
  rw [same_iff] at first second ⊢
  rcases first with ⟨rfl, none⟩ | ⟨place, here, there⟩
  · exact second
  · rcases second with ⟨rfl, none⟩ | ⟨other, same, behind⟩
    · exact .inr ⟨place, here, there⟩
    · obtain rfl : place = other := Option.some.inj (there.symm.trans same)
      exact .inr ⟨place, here, behind⟩

/-- The same keys are the same as the same keys. -/
theorem same_congr {x y : Scalar} (same : x.same y = true) (key : Scalar) :
    key.same x = key.same y := by
  refine Bool.eq_iff_iff.mpr ⟨fun first => same_trans first same, fun second => ?_⟩
  rw [same_comm] at same
  exact same_trans second same

end Scalar

/-! ### Maps -/

namespace Fields

theorem find?_congr (fields : Fields) {key other : Scalar} (same : key.same other = true) :
    fields.find? key = fields.find? other := by
  rw [find?, find?]
  simp only [Scalar.same_congr same]

theorem mem_of_find? {fields : Fields} {key : Scalar} {value : Value}
    (found : fields.find? key = some value) :
    ∃ other, (other, value) ∈ fields ∧ other.same key = true := by
  obtain ⟨⟨other, value⟩, first, rfl⟩ := Option.map_eq_some_iff.mp found
  exact ⟨other, List.mem_of_find?_eq_some first, by simpa using List.find?_some first⟩

end Fields

namespace Value

theorem equalEntries_iff {entries : List (Scalar × Value)} {fields : Fields} :
    equalEntries entries fields = true ↔
      ∀ entry ∈ entries, ∃ value, fields.find? entry.1 = some value ∧
        entry.2.equal value = true := by
  induction entries with
  | nil => simp [equalEntries]
  | cons entry rest ih =>
    obtain ⟨key, content⟩ := entry
    rw [equalEntries, Bool.and_eq_true, ih, List.forall_mem_cons]
    refine and_congr_left' ?_
    cases fields.find? key <;> simp

/-! ### Values -/

mutual

theorem equal_trans {x y z : Value} (first : x.equal y = true) (second : y.equal z = true) :
    x.equal z = true := by
  cases x with
  | scalar x =>
    cases y with
    | scalar y =>
      cases z with
      | scalar z => exact Scalar.same_trans first second
      | list | map => simp [equal] at second
    | list | map => simp [equal] at first
  | list xs =>
    cases y with
    | list ys =>
      cases z with
      | list zs =>
        simp only [equal] at first second ⊢
        exact equalItems_trans first second
      | scalar | map => simp [equal] at second
    | scalar | map => simp [equal] at first
  | map xs =>
    cases y with
    | map ys =>
      cases z with
      | map zs =>
        simp only [equal, Bool.and_eq_true, decide_eq_true_eq] at first second ⊢
        exact ⟨first.1.trans second.1, equalEntries_trans first.2 second.2⟩
      | scalar | list => simp [equal] at second
    | scalar | list => simp [equal] at first
termination_by sizeOf x

theorem equalItems_trans {xs ys zs : List Value} (first : equalItems xs ys = true)
    (second : equalItems ys zs = true) : equalItems xs zs = true := by
  cases xs with
  | nil =>
    cases ys with
    | nil => exact second
    | cons => simp [equalItems] at first
  | cons x xs =>
    cases ys with
    | nil => simp [equalItems] at first
    | cons y ys =>
      cases zs with
      | nil => simp [equalItems] at second
      | cons z zs =>
        simp only [equalItems, Bool.and_eq_true] at first second ⊢
        exact ⟨equal_trans first.1 second.1, equalItems_trans first.2 second.2⟩
termination_by sizeOf xs

theorem equalEntries_trans {xs ys zs : List (Scalar × Value)}
    (first : equalEntries xs ys = true) (second : equalEntries ys zs = true) :
    equalEntries xs zs = true := by
  match xs, first with
  | [], _ => rfl
  | (key, x) :: xs, first =>
    obtain ⟨⟨y, found, same⟩, rest⟩ := List.forall_mem_cons.mp (equalEntries_iff.mp first)
    obtain ⟨other, member, sameKey⟩ := Fields.mem_of_find? found
    obtain ⟨z, foundBehind, sameBehind⟩ := equalEntries_iff.mp second _ member
    rw [Fields.find?_congr zs sameKey] at foundBehind
    refine equalEntries_iff.mpr (List.forall_mem_cons.mpr ⟨⟨z, foundBehind, ?_⟩, ?_⟩)
    · exact equal_trans same sameBehind
    · exact equalEntries_iff.mp (equalEntries_trans (equalEntries_iff.mpr rest) second)
termination_by sizeOf xs

end

end Value

end TextGrammar
