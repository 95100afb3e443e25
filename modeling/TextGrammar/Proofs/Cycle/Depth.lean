import Mathlib.Data.Finset.Card
import TextGrammar.Proofs.Cycle.Search

/-!
How far references lead. If the search finds no cycle, then no chain of references has more names
of the table than the table has.
-/

namespace TextGrammar.Cycle

variable {references : Table (List String)} {name : String} {bound : Nat}

/-- No chain of references that begins with the name has more than so many names of the table. -/
def Within (references : Table (List String)) : Nat → String → Prop
  | 0, name => name ∉ references.names
  | bound + 1, name => ∀ target ∈ (references.get? name).getD [], Within references bound target

theorem within_succ (within : Within references bound name) :
    Within references (bound + 1) name := by
  induction bound generalizing name with
  | zero =>
    intro target member
    rw [Table.get?_eq_none_iff.mpr within] at member
    cases member
  | succ bound ih =>
    intro target member
    exact ih (within target member)

theorem Within.mono {larger : Nat} (within : Within references bound name)
    (atMost : bound ≤ larger) : Within references larger name := by
  induction atMost with
  | refl => exact within
  | step _ ih => exact within_succ ih

theorem within_of_settled {order : List String} (settled : Settled references order)
    (member : name ∈ order) : Within references order.toFinset.card name := by
  induction order generalizing name with
  | nil => cases member
  | cons first rest ih =>
    obtain ⟨ahead, settled⟩ := settled
    -- a name that is left twice is counted once
    by_cases again : first ∈ rest
    · have same : (first :: rest).toFinset = rest.toFinset := by simp [again]
      rw [same]
      rcases List.mem_cons.mp member with rfl | member
      · exact ih settled again
      · exact ih settled member
    · have more : (first :: rest).toFinset.card = rest.toFinset.card + 1 := by
        rw [List.toFinset_cons, Finset.card_insert_of_notMem (by simpa using again)]
      rw [more]
      rcases List.mem_cons.mp member with rfl | member
      · intro target refers
        by_cases known : target ∈ references.names
        · exact ih settled (ahead target ⟨refers, known⟩)
        · have none : Within references 0 target := known
          exact none.mono (Nat.zero_le _)
      · exact within_succ (ih settled member)

/-- Without cycles the number of names bounds every chain of references. -/
theorem within_of_find_eq_nil (none : find references = []) (name : String) :
    Within references references.names.length name := by
  obtain ⟨order, settled, known, all⟩ := settled_of_find_eq_nil none
  by_cases member : name ∈ references.names
  · refine (within_of_settled settled (all member)).mono ?_
    calc order.toFinset.card
        ≤ references.names.toFinset.card := by
          apply Finset.card_le_card
          intro other inside
          simpa using known (by simpa using inside)
      _ ≤ references.names.length := List.toFinset_card_le _
  · have outside : Within references 0 name := member
    exact outside.mono (Nat.zero_le _)

end TextGrammar.Cycle
