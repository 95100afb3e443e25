import Mathlib.Data.Finset.Card
import Mathlib.Data.List.Basic
import TextGrammar.Engine.Cycle

/-!
The search for cycles. If it writes down none, then the names that it leaves, the last one first,
stand in front of all names they refer to, and every name is left.
-/

namespace TextGrammar.Cycle

/-- A name refers to another one that is in the table. -/
def Refers (references : Table (List String)) (source target : String) : Prop :=
  target ∈ (references.get? source).getD [] ∧ target ∈ references.names

instance (references : Table (List String)) : DecidableRel (Refers references) :=
  fun _ _ => inferInstanceAs (Decidable (_ ∧ _))

/-- Every name stands in front of the names that it refers to. -/
def Settled (references : Table (List String)) : List String → Prop
  | [] => True
  | name :: rest => (∀ target, Refers references name target → target ∈ rest) ∧
    Settled references rest

variable {references : Table (List String)}

/-! ### A search only grows -/

/-- The later search knows all that the earlier one knew. -/
structure Search.Grows (earlier later : Search) : Prop where
  cycles : earlier.cycles <+: later.cycles
  done : earlier.done ⊆ later.done

namespace Search.Grows

theorem refl (search : Search) : Grows search search :=
  ⟨List.prefix_refl _, List.Subset.refl _⟩

theorem trans {first second third : Search} (one : Grows first second) (two : Grows second third) :
    Grows first third :=
  ⟨one.cycles.trans two.cycles, List.Subset.trans one.done two.done⟩

theorem no_cycles {earlier later : Search} (grows : Grows earlier later)
    (none : later.cycles = []) : earlier.cycles = [] := by
  have shorter := grows.cycles
  rw [none] at shorter
  exact List.prefix_nil.mp shorter

theorem foldl {step : Search → String → Search}
    (each : ∀ search name, Grows search (step search name)) (names : List String)
    (search : Search) : Grows search (names.foldl step search) := by
  induction names generalizing search with
  | nil => exact refl search
  | cons name rest ih => exact (each search name).trans (ih (step search name))

end Search.Grows

open Search

theorem grows_close (search : Search) (cycle : List String) :
    Grows search (search.close cycle) := by
  unfold Search.close
  split
  · exact Grows.refl search
  · exact ⟨List.prefix_append _ _, List.Subset.refl _⟩

/-- A closed cycle is there, or one with the same names. -/
theorem close_cycles_ne_nil (search : Search) (cycle : List String) :
    (search.close cycle).cycles ≠ [] := by
  unfold Search.close
  split
  · rename_i known
    intro none
    simp [none] at known
  · simp

/-! ### The steps of a visit -/

/-- What the search does with one reference of a name. -/
def follow (references : Table (List String)) (steps : Nat) (path : List String) (search : Search)
    (target : String) : Search :=
  if !references.contains target then search
  else if path.contains target then search.close (path.dropWhile (· ≠ target))
  else if search.done.contains target then search
  else visit references steps target (path ++ [target]) search

theorem visit_succ (steps : Nat) (name : String) (path : List String) (search : Search) :
    visit references (steps + 1) name path search =
      let inner := ((references.get? name).getD []).foldl (follow references steps path) search
      { inner with done := name :: inner.done } := rfl

theorem grows_follow {steps : Nat}
    (visits : ∀ name path search, Grows search (visit references steps name path search))
    (path : List String) (search : Search) (target : String) :
    Grows search (follow references steps path search target) := by
  unfold follow
  split
  · exact Grows.refl search
  · split
    · exact grows_close search _
    · split
      · exact Grows.refl search
      · exact visits target _ search

theorem grows_visit (steps : Nat) (name : String) (path : List String) (search : Search) :
    Grows search (visit references steps name path search) := by
  induction steps generalizing name path search with
  | zero => exact Grows.refl search
  | succ steps ih =>
    rw [visit_succ]
    have inner := Grows.foldl (grows_follow ih path) ((references.get? name).getD []) search
    exact inner.trans ⟨List.prefix_refl _, List.subset_cons_self _ _⟩

/-! ### Without cycles the names are left in order -/

/-- The names that have been left are names of the table, each in front of its references. -/
structure Orderly (references : Table (List String)) (search : Search) : Prop where
  known : search.done ⊆ references.names
  settled : Settled references search.done

/-- A path that still has steps left for each name that is not on it. -/
structure Spacious (references : Table (List String)) (steps : Nat) (path : List String) :
    Prop where
  unique : path.Nodup
  known : path ⊆ references.names
  room : references.names.length < path.length + steps

theorem Spacious.steps_pos {steps : Nat} {path : List String}
    (spacious : Spacious references steps path) : 0 < steps := by
  have short := (spacious.unique.subperm spacious.known).length_le
  have room := spacious.room
  omega

theorem Spacious.append {steps : Nat} {path : List String} {target : String}
    (spacious : Spacious references (steps + 1) path) (fresh : target ∉ path)
    (known : target ∈ references.names) : Spacious references steps (path ++ [target]) := by
  refine ⟨?_, ?_, ?_⟩
  · exact List.nodup_append.mpr ⟨spacious.unique, by simp, by
      intro x member y single
      rw [List.mem_singleton.mp single]
      rintro rfl
      exact fresh member⟩
  · simpa using ⟨spacious.known, known⟩
  · have room := spacious.room
    simp only [List.length_append, List.length_singleton]
    omega

/-- A search that writes down no cycle keeps its order, and has left the target at the end. -/
theorem orderly_follow {steps : Nat} {path : List String} {search : Search} {target : String}
    (visits : ∀ search, Orderly references search → target ∉ path → target ∈ references.names →
      (visit references steps target (path ++ [target]) search).cycles = [] →
      Orderly references (visit references steps target (path ++ [target]) search) ∧
        target ∈ (visit references steps target (path ++ [target]) search).done)
    (orderly : Orderly references search)
    (none : (follow references steps path search target).cycles = []) :
    Orderly references (follow references steps path search target) ∧
      (target ∈ references.names → target ∈ (follow references steps path search target).done) := by
  unfold follow at none ⊢
  by_cases known : references.contains target
  · have member := Table.contains_iff_mem_names.mp known
    simp only [known, Bool.not_true, Bool.false_eq_true, if_false] at none ⊢
    by_cases circular : path.contains target
    · rw [if_pos circular] at none
      exact absurd none (close_cycles_ne_nil _ _)
    · rw [if_neg circular] at none ⊢
      by_cases left : search.done.contains target
      · rw [if_pos left]
        exact ⟨orderly, fun _ => by simpa using left⟩
      · rw [if_neg left] at none ⊢
        obtain ⟨kept, member⟩ := visits search orderly (by simpa using circular) member none
        exact ⟨kept, fun _ => member⟩
  · simp only [known, Bool.not_false, if_true] at none ⊢
    exact ⟨orderly, fun member => absurd (Table.contains_iff_mem_names.mpr member) known⟩

/-- After all references of a name have been followed, all of them have been left. -/
theorem orderly_foldl {step : Search → String → Search} {targets : List String} {search : Search}
    (grows : ∀ search target, Grows search (step search target))
    (each : ∀ search, ∀ target ∈ targets, Orderly references search →
      (step search target).cycles = [] → Orderly references (step search target) ∧
        (target ∈ references.names → target ∈ (step search target).done))
    (orderly : Orderly references search) (none : (targets.foldl step search).cycles = []) :
    Orderly references (targets.foldl step search) ∧
      ∀ target ∈ targets, target ∈ references.names →
        target ∈ (targets.foldl step search).done := by
  induction targets generalizing search with
  | nil => exact ⟨orderly, by simp⟩
  | cons target rest ih =>
    have behind : Grows (step search target) (rest.foldl step (step search target)) :=
      Grows.foldl grows rest _
    obtain ⟨kept, left⟩ := each search target List.mem_cons_self orderly (behind.no_cycles none)
    obtain ⟨kept, all⟩ :=
      ih (fun search other member => each search other (List.mem_cons_of_mem _ member)) kept none
    refine ⟨kept, fun other member known => ?_⟩
    rcases List.mem_cons.mp member with rfl | member
    · exact behind.done (left known)
    · exact all other member known

theorem orderly_visit {steps : Nat} {name : String} {path : List String} {search : Search}
    (spacious : Spacious references steps path) (last : name ∈ path)
    (orderly : Orderly references search)
    (none : (visit references steps name path search).cycles = []) :
    Orderly references (visit references steps name path search) ∧
      name ∈ (visit references steps name path search).done := by
  induction steps generalizing name path search with
  -- a path without repetitions leaves no room for this case: the steps never run out
  | zero => exact absurd spacious.steps_pos (Nat.lt_irrefl 0)
  | succ steps ih =>
    rw [visit_succ] at none ⊢
    -- all references are left before the name itself, so it may be put in front of them
    have inner := orderly_foldl (grows_follow (grows_visit steps) path)
      (fun search target _ orderly none =>
        orderly_follow (fun search orderly fresh known none =>
          ih (spacious.append fresh known) (by simp) orderly none) orderly none)
      orderly none
    obtain ⟨kept, left⟩ := inner
    refine ⟨⟨?_, ?_, kept.settled⟩, List.mem_cons_self⟩
    · exact List.cons_subset.mpr ⟨spacious.known last, kept.known⟩
    · rintro target ⟨member, known⟩
      exact left target member known

/-- What the search does with a name of the table. -/
def enter (references : Table (List String)) (search : Search) (name : String) : Search :=
  if search.done.contains name then search
  else visit references references.names.length name [name] search

theorem find_eq (references : Table (List String)) :
    find references = (references.names.foldl (enter references) ⟨[], []⟩).cycles := rfl

theorem grows_enter (search : Search) (name : String) :
    Grows search (enter references search name) := by
  unfold enter
  split
  · exact Grows.refl search
  · exact grows_visit _ _ _ _

theorem orderly_enter {search : Search} {name : String} (known : name ∈ references.names)
    (orderly : Orderly references search) (none : (enter references search name).cycles = []) :
    Orderly references (enter references search name) ∧
      name ∈ (enter references search name).done := by
  unfold enter at none ⊢
  by_cases left : search.done.contains name
  · rw [if_pos left]
    exact ⟨orderly, by simpa using left⟩
  · rw [if_neg left] at none ⊢
    have spacious : Spacious references references.names.length [name] :=
      ⟨by simp, by simpa using known, by simp⟩
    exact orderly_visit spacious (by simp) orderly none

/-- If no cycle is found, the names of the table stand in an order in which each one is in front of
the names that it refers to. -/
theorem settled_of_find_eq_nil (none : find references = []) :
    ∃ order, Settled references order ∧ order ⊆ references.names ∧ references.names ⊆ order := by
  rw [find_eq] at none
  have start : Orderly references ⟨[], []⟩ := ⟨List.nil_subset _, trivial⟩
  obtain ⟨orderly, all⟩ := orderly_foldl grows_enter
    (fun search name known orderly none =>
      (orderly_enter known orderly none).imp_right fun left _ => left) start none
  exact ⟨_, orderly.settled, orderly.known, fun name known => all name known known⟩

end TextGrammar.Cycle
