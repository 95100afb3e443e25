import Mathlib.Data.List.Forall2
import TextGrammar.Proofs.Effect
import TextGrammar.Table

/-!
Traversals that stop at the first element whose step fails. Those that build a table give the
table of what their steps give; those that search give the first element for which a question is
answered with yes.
-/

namespace TextGrammar

namespace Effect

variable {ε α β : Type} {step : α → Except ε β}

/-- A traversal gives what its step gives for each element. -/
theorem mapM_eq_ok_iff {inputs : List α} {outputs : List β} :
    inputs.mapM step = .ok outputs ↔
      List.Forall₂ (fun input output => step input = .ok output) inputs outputs := by
  induction inputs generalizing outputs with
  | nil => cases outputs <;> simp
  | cons input rest ih =>
    rw [List.mapM_cons, bind_eq_ok]
    cases outputs with
    | nil => simp [bind_eq_ok]
    | cons output more => simp [bind_eq_ok, ← ih]

/-- What a traversal gives comes from its elements. -/
theorem exists_of_mapM_eq_ok {inputs : List α} {outputs : List β}
    (traversed : inputs.mapM step = .ok outputs) {output : β} (member : output ∈ outputs) :
    ∃ input ∈ inputs, step input = .ok output := by
  induction mapM_eq_ok_iff.mp traversed with
  | nil => cases member
  | @cons input first rest more given behind ih =>
    rcases List.mem_cons.mp member with rfl | later
    · exact ⟨input, List.mem_cons_self, given⟩
    · obtain ⟨other, present, given⟩ := ih (mapM_eq_ok_iff.mpr behind) later
      exact ⟨other, List.mem_cons_of_mem input present, given⟩

theorem exists_output_of_mem {inputs : List α} {outputs : List β}
    (traversed : inputs.mapM step = .ok outputs) {input : α} (member : input ∈ inputs) :
    ∃ output ∈ outputs, step input = .ok output := by
  induction mapM_eq_ok_iff.mp traversed with
  | nil => cases member
  | @cons first output rest more given behind ih =>
    rcases List.mem_cons.mp member with rfl | later
    · exact ⟨output, List.mem_cons_self, given⟩
    · obtain ⟨other, present, made⟩ := ih (mapM_eq_ok_iff.mpr behind) later
      exact ⟨other, List.mem_cons_of_mem output present, made⟩

/-- A traversal fails because its step fails for an element. -/
theorem exists_of_mapM_eq_error {inputs : List α} {reason : ε}
    (failed : inputs.mapM step = .error reason) : ∃ input ∈ inputs, step input = .error reason := by
  induction inputs with
  | nil => cases failed
  | cons input rest ih =>
    rw [List.mapM_cons, bind_eq_error] at failed
    rcases failed with first | ⟨output, -, later⟩
    · exact ⟨input, List.mem_cons_self, first⟩
    · rcases bind_eq_error.mp later with behind | ⟨outputs, -, impossible⟩
      · obtain ⟨other, member, reasoned⟩ := ih behind
        exact ⟨other, List.mem_cons_of_mem input member, reasoned⟩
      · cases impossible

/-- A traversal by a step that has one error only fails exactly if the step does for an element. -/
theorem mapM_eq_error_iff {reason : ε} {inputs : List α}
    (only : ∀ input ∈ inputs, ∀ other, step input = .error other → other = reason) :
    inputs.mapM step = .error reason ↔ ∃ input ∈ inputs, step input = .error reason := by
  refine ⟨exists_of_mapM_eq_error, ?_⟩
  induction inputs with
  | nil =>
    rintro ⟨input, member, -⟩
    cases member
  | cons first rest ih =>
    rintro ⟨input, member, failed⟩
    rw [List.mapM_cons, bind_eq_error]
    cases given : step first with
    | error other => exact .inl (congrArg _ (only first List.mem_cons_self other given))
    | ok output =>
      have ih := ih fun later behind => only later (List.mem_cons_of_mem first behind)
      refine .inr ⟨output, rfl, bind_eq_error.mpr (.inl (ih ⟨input, ?_, failed⟩))⟩
      refine (List.mem_cons.mp member).resolve_left ?_
      rintro rfl
      rw [given] at failed
      cases failed

/-- A traversal fails if its step fails for an element, whichever that is. -/
theorem exists_error_of_mem {inputs : List α} {input : α} {reason : ε} (member : input ∈ inputs)
    (failed : step input = .error reason) : ∃ first, inputs.mapM step = .error first := by
  cases traversed : inputs.mapM step with
  | error first => exact ⟨first, rfl⟩
  | ok outputs =>
    have given := List.forall₂_iff_get.mp (mapM_eq_ok_iff.mp traversed)
    obtain ⟨place, inside, rfl⟩ := List.mem_iff_getElem.mp member
    have passed := given.2 place inside (given.1 ▸ inside)
    rw [List.get_eq_getElem, failed] at passed
    cases passed

/-- The first element for which the step fails decides on the error. -/
theorem mapM_of_first {before after : List α} {input : α} {reason : ε}
    (passed : ∀ other ∈ before, ∃ output, step other = .ok output)
    (failed : step input = .error reason) :
    (before ++ input :: after).mapM step = .error reason := by
  induction before with
  | nil => rw [List.nil_append, List.mapM_cons, failed]; rfl
  | cons other rest ih =>
    obtain ⟨⟨output, given⟩, behind⟩ := List.forall_mem_cons.mp passed
    rw [List.cons_append, List.mapM_cons, given, ih behind]
    rfl

section

variable {ask : α → Except ε Bool} {inputs : List α}

theorem findM?_cons (input : α) (rest : List α) :
    (input :: rest).findM? ask = (do
      match ← ask input with
      | true => return some input
      | false => rest.findM? ask) := rfl

/-- A search ends without an element if no answer is yes. -/
theorem findM?_eq_none_iff :
    inputs.findM? ask = .ok none ↔ ∀ input ∈ inputs, ask input = .ok false := by
  induction inputs with
  | nil => exact ⟨fun _ => List.forall_mem_nil _, fun _ => rfl⟩
  | cons input rest ih =>
    rw [findM?_cons, bind_eq_ok, List.forall_mem_cons, ← ih]
    constructor
    · rintro ⟨answer, given, behind⟩
      cases answer with
      | true => cases behind
      | false => exact ⟨given, behind⟩
    · rintro ⟨given, behind⟩
      exact ⟨false, given, behind⟩

/-- A search finds the first element for which the answer is yes. -/
theorem findM?_eq_some_iff {found : α} : inputs.findM? ask = .ok (some found) ↔
    ∃ front back, inputs = front ++ found :: back ∧ (∀ input ∈ front, ask input = .ok false) ∧
      ask found = .ok true := by
  induction inputs with
  | nil => exact ⟨nofun, fun ⟨front, back, split, _⟩ => by cases front <;> cases split⟩
  | cons input rest ih =>
    rw [findM?_cons, bind_eq_ok]
    constructor
    · rintro ⟨answer, given, behind⟩
      cases answer with
      | true =>
        cases behind
        exact ⟨[], rest, rfl, List.forall_mem_nil _, given⟩
      | false =>
        obtain ⟨front, back, rfl, passed, here⟩ := ih.mp behind
        exact ⟨input :: front, back, rfl, List.forall_mem_cons.mpr ⟨given, passed⟩, here⟩
    · rintro ⟨front, back, split, passed, here⟩
      cases front with
      | nil =>
        cases split
        exact ⟨true, here, rfl⟩
      | cons first more =>
        cases split
        obtain ⟨given, passed⟩ := List.forall_mem_cons.mp passed
        exact ⟨false, given, ih.mpr ⟨more, back, rfl, passed, here⟩⟩

/-- A search fails with the first answer that fails, if none before it is yes. -/
theorem findM?_eq_error_iff {reason : ε} : inputs.findM? ask = .error reason ↔
    ∃ front input back, inputs = front ++ input :: back ∧
      (∀ other ∈ front, ask other = .ok false) ∧ ask input = .error reason := by
  induction inputs with
  | nil => exact ⟨nofun, fun ⟨front, _, back, split, _⟩ => by cases front <;> cases split⟩
  | cons first rest ih =>
    rw [findM?_cons, bind_eq_error]
    constructor
    · rintro (here | ⟨answer, given, behind⟩)
      · exact ⟨[], first, rest, rfl, List.forall_mem_nil _, here⟩
      · cases answer with
        | true => cases behind
        | false =>
          obtain ⟨front, input, back, rfl, passed, here⟩ := ih.mp behind
          exact ⟨first :: front, input, back, rfl, List.forall_mem_cons.mpr ⟨given, passed⟩, here⟩
    · rintro ⟨front, input, back, split, passed, here⟩
      cases front with
      | nil =>
        cases split
        exact .inl here
      | cons other more =>
        cases split
        obtain ⟨given, passed⟩ := List.forall_mem_cons.mp passed
        exact .inr ⟨false, given, ih.mpr ⟨more, input, back, rfl, passed, here⟩⟩

end

end Effect

/-! ### Tables of related values -/

namespace Table

variable {α β : Type} {related : α → β → Prop}

/-- Entries of the same names, with related values. -/
def Entrywise (related : α → β → Prop) (entries : List (String × α))
    (entries' : List (String × β)) : Prop :=
  List.Forall₂ (fun entry entry' => entry.1 = entry'.1 ∧ related entry.2 entry'.2) entries entries'

theorem Entrywise.values {entries : List (String × α)} {entries' : List (String × β)}
    (same : Entrywise related entries entries') :
    List.Forall₂ related (entries.map Prod.snd) (entries'.map Prod.snd) := by
  rw [List.forall₂_map_left_iff, List.forall₂_map_right_iff]
  exact same.imp fun _ _ both => both.2

theorem Entrywise.names {table : Table α} {table' : Table β}
    (same : Entrywise related table.entries table'.entries) : table.names = table'.names := by
  rw [Table.names, Table.names]
  obtain ⟨entries⟩ := table
  obtain ⟨entries'⟩ := table'
  simp only at same ⊢
  induction same with
  | nil => rfl
  | cons both behind ih => rw [List.map_cons, List.map_cons, both.1, ih]

/-- Under each name there are related values, or there is none in either table. -/
theorem Entrywise.get? {table : Table α} {table' : Table β}
    (same : Entrywise related table.entries table'.entries) (name : String) :
    Option.Rel related (table.get? name) (table'.get? name) := by
  rw [Table.get?, Table.get?]
  obtain ⟨entries⟩ := table
  obtain ⟨entries'⟩ := table'
  simp only at same ⊢
  induction same with
  | nil => exact .none
  | @cons entry entry' rest rest' both behind ih =>
    by_cases found : entry.1 = name
    · have found' : entry'.1 = name := both.1 ▸ found
      simp only [List.find?_cons, found, found', decide_true, Option.map_some]
      exact .some both.2
    · have passed : ¬ entry'.1 = name := both.1 ▸ found
      simpa only [List.find?_cons, found, passed, decide_false] using ih

theorem Entrywise.putEntry {entries : List (String × α)} {entries' : List (String × β)}
    (same : Entrywise related entries entries') {name : String} {value : α} {value' : β}
    (relates : related value value') :
    Entrywise related (putEntry name value entries) (putEntry name value' entries') := by
  induction same with
  | nil => exact .cons ⟨rfl, relates⟩ .nil
  | @cons entry entry' rest rest' both behind ih =>
    obtain ⟨name', content⟩ := entry'
    obtain rfl : entry.1 = name' := both.1
    by_cases found : entry.1 = name
    · simp only [Table.putEntry, if_pos found]
      exact .cons ⟨rfl, relates⟩ behind
    · simp only [Table.putEntry, if_neg found]
      exact .cons both ih

/-- Tables of pairs with the same names and related values have related values. -/
theorem Entrywise.ofList {pairs : List (String × α)} {pairs' : List (String × β)}
    (same : Entrywise related pairs pairs') :
    Entrywise related (ofList pairs).entries (ofList pairs').entries := by
  have put (table : Table α) (table' : Table β)
      (before : Entrywise related table.entries table'.entries) :
      Entrywise related (pairs.foldl (fun table pair => table.put pair.1 pair.2) table).entries
        (pairs'.foldl (fun table pair => table.put pair.1 pair.2) table').entries := by
    induction same generalizing table table' with
    | nil => exact before
    | @cons pair pair' rest rest' both behind ih =>
      obtain ⟨name, value⟩ := pair'
      obtain rfl : pair.1 = name := both.1
      exact ih _ _ (before.putEntry both.2)
  exact put .empty .empty .nil

end Table

end TextGrammar
