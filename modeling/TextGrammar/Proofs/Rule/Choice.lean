import TextGrammar.Proofs.Effect
import TextGrammar.Proofs.Slot.Filled
import TextGrammar.Rule.Pick

/-!
Choices between values: what values offer, and what may stand for the slots of a template.
-/

namespace TextGrammar

/-- What values offer: the text of any of them, or nothing if there are none. -/
def Offers (values : List Value) (text : List Char) : Prop :=
  (values = [] ∧ text = []) ∨ ∃ value ∈ values, value.text = .ok (String.ofList text)

/-- What may stand for a slot of a template: what the values of its variable offer, or the slot as
it is written if no variable has its name. -/
def Binds (bindings : Table (List Value)) (name : String) (text : List Char) : Prop :=
  match bindings.get? name with
  | some values => Offers values text
  | none => text = (Segment.slot name).written

namespace Pick

open Effect

variable {ρ ω : Type} {fails : Failure → Prop}

theorem keeps_ofOutcome {α : Type} {outcome : Except Failure α}
    (failed : ∀ failure, outcome = .error failure → fails failure) :
    Keeps (fun _ => True) (fun value => outcome = .ok value) fails
      (ofOutcome outcome : Pick ρ ω α) := by
  intro sources _
  cases outcome with
  | ok value => exact ⟨trivial, rfl⟩
  | error failure => exact ⟨trivial, failed failure rfl⟩

theorem keeps_ofFault {α : Type} {outcome : Except Fault α}
    (faults : ∀ reason, outcome = .error reason → fails (.fault reason)) :
    Keeps (fun _ => True) (fun value => outcome = .ok value) fails
      (ofFault outcome : Pick ρ ω α) := by
  intro sources _
  cases outcome with
  | ok value => exact ⟨trivial, rfl⟩
  | error reason => exact ⟨trivial, faults reason rfl⟩

variable [Draws ρ]

theorem keeps_uniform {values : List Value}
    (faults : ∀ value ∈ values, ∀ reason, value.text = .error reason → fails (.fault reason)) :
    Keeps (fun _ => True) (fun text => Offers values text.toList) fails
      (Pick.uniform values : Pick ρ ω String) := by
  unfold Pick.uniform
  split
  · rename_i positive
    have drawn : Keeps (fun _ => True) (fun _ => True) fails
        (below values.length positive : Pick ρ ω (Fin values.length)) :=
      fun _ _ => ⟨trivial, trivial⟩
    refine keeps_bind drawn fun place _ => ?_
    have member := List.get_mem values place
    refine (keeps_ofFault (faults _ member)).imp fun text shown => .inr ?_
    exact ⟨_, member, by rw [shown, String.ofList_toList]⟩
  · rename_i nonpositive
    have empty : values = [] := by simpa using nonpositive
    exact keeps_pure (.inl ⟨empty, rfl⟩)

theorem keeps_template {bindings : Table (List Value)}
    (faults : ∀ entry ∈ bindings.entries, ∀ value ∈ entry.2, ∀ reason,
      value.text = .error reason → fails (.fault reason)) (pieces : List Segment) :
    Keeps (fun _ => True) (Segment.Fills (Binds bindings) pieces) fails
      (Pick.template bindings pieces : Pick ρ ω (List Char)) := by
  induction pieces with
  | nil => exact keeps_pure .done
  | cons first rest ih =>
    cases first with
    | plain characters => exact keeps_bind ih fun more fills => keeps_pure (.plain fills)
    | slot name =>
      rw [Pick.template]
      cases found : bindings.get? name with
      | none =>
        refine keeps_bind ih fun more fills => keeps_pure ?_
        exact .slot (by simp [Binds, found]) fills
      | some values =>
        have among := faults _ (Table.mem_of_get? found)
        refine keeps_bind (keeps_uniform among) fun value offered => ?_
        refine keeps_bind ih fun more fills => keeps_pure ?_
        exact .slot (by simpa [Binds, found] using offered) fills

end Pick

end TextGrammar
