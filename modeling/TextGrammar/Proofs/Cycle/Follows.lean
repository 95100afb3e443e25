import Mathlib.Data.List.Chain
import TextGrammar.Proofs.Cycle.Search

/-!
The search for cycles as a relation that counts no steps. Main statements: from its beginning the
search ends in one way only, which is the one that the counted steps are enough for; every cycle
that it writes down is a cycle of references, and no two of them have the same names.
-/

namespace TextGrammar.Cycle

/-- The search behind a name that is left. -/
def Search.leave (search : Search) (name : String) : Search :=
  { search with done := name :: search.done }

/-- Names are followed one after the other from the last name of a path. A name that is not in the
table or has been left is passed by, one that is on the path closes a cycle, and any other one is
entered: its own references are followed, and then it is left. -/
inductive Follows (references : Table (List String)) :
    List String → List String → Search → Search → Prop where
  | done {path : List String} {search : Search} : Follows references path [] search search
  | unknown {path rest : List String} {target : String} {earlier later : Search}
      (absent : target ∉ references.names)
      (behind : Follows references path rest earlier later) :
      Follows references path (target :: rest) earlier later
  | circular {path rest : List String} {target : String} {earlier later : Search}
      (known : target ∈ references.names) (onPath : target ∈ path)
      (behind : Follows references path rest (earlier.close (path.dropWhile (· ≠ target))) later) :
      Follows references path (target :: rest) earlier later
  | left {path rest : List String} {target : String} {earlier later : Search}
      (known : target ∈ references.names) (fresh : target ∉ path) (old : target ∈ earlier.done)
      (behind : Follows references path rest earlier later) :
      Follows references path (target :: rest) earlier later
  | entered {path rest : List String} {target : String} {earlier between later : Search}
      (known : target ∈ references.names) (fresh : target ∉ path) (new : target ∉ earlier.done)
      (inside : Follows references (path ++ [target]) ((references.get? target).getD []) earlier
        between)
      (behind : Follows references path rest (between.leave target) later) :
      Follows references path (target :: rest) earlier later

variable {references : Table (List String)} {path targets : List String} {earlier later : Search}
  {steps : Nat}

/-! ### The counted steps are enough -/

theorem follow_of_notMem {target : String} (absent : target ∉ references.names) (search : Search) :
    follow references steps path search target = search := by
  have unknown : references.contains target = false := by
    rwa [← Bool.not_eq_true, Table.contains_iff_mem_names]
  simp [follow, unknown]

section

variable {target : String} (known : target ∈ references.names)

include known

theorem follow_of_mem_path (onPath : target ∈ path) (search : Search) :
    follow references steps path search target = search.close (path.dropWhile (· ≠ target)) := by
  have contained : references.contains target = true := Table.contains_iff_mem_names.mpr known
  simp [follow, contained, onPath]

variable (fresh : target ∉ path) {search : Search}

include fresh

theorem follow_of_mem_done (old : target ∈ search.done) :
    follow references steps path search target = search := by
  have contained : references.contains target = true := Table.contains_iff_mem_names.mpr known
  simp [follow, contained, fresh, old]

theorem follow_of_new (new : target ∉ search.done) :
    follow references steps path search target =
      visit references steps target (path ++ [target]) search := by
  have contained : references.contains target = true := Table.contains_iff_mem_names.mpr known
  simp [follow, contained, fresh, new]

end

/-- What the counted search does with names is to follow them, if it does so with a name it
enters. -/
theorem follows_foldl
    (visits : ∀ target search, target ∈ references.names → target ∉ path →
      ∃ inner, Follows references (path ++ [target]) ((references.get? target).getD []) search
        inner ∧ visit references steps target (path ++ [target]) search = inner.leave target)
    (targets : List String) (search : Search) :
    Follows references path targets search
      (targets.foldl (follow references steps path) search) := by
  induction targets generalizing search with
  | nil => exact .done
  | cons target rest ih =>
    rw [List.foldl_cons]
    by_cases known : target ∈ references.names
    · by_cases onPath : target ∈ path
      · rw [follow_of_mem_path known onPath]
        exact .circular known onPath (ih _)
      · by_cases old : target ∈ search.done
        · rw [follow_of_mem_done known onPath old]
          exact .left known onPath old (ih search)
        · obtain ⟨inner, inside, same⟩ := visits target search known onPath
          rw [follow_of_new known onPath old, same]
          exact .entered known onPath old inside (ih _)
    · rw [follow_of_notMem known]
      exact .unknown known (ih search)

/-- With enough steps, a visit follows the references of its name and leaves it. -/
theorem exists_inner (spacious : Spacious references steps path) (name : String)
    (search : Search) :
    ∃ inner, Follows references path ((references.get? name).getD []) search inner ∧
      visit references steps name path search = inner.leave name := by
  induction steps generalizing path name search with
  | zero => exact absurd spacious.steps_pos (Nat.lt_irrefl 0)
  | succ steps ih =>
    refine ⟨_, follows_foldl (fun target search known fresh => ?_) _ search, rfl⟩
    exact ih (spacious.append fresh known) target search

/-- Whatever names are followed without counting, the counted search does the same. -/
theorem Follows.foldl_eq (follows : Follows references path targets earlier later)
    (spacious : Spacious references (steps + 1) path) :
    targets.foldl (follow references steps path) earlier = later := by
  induction follows generalizing steps with
  | done => rfl
  | unknown absent behind ih => rw [List.foldl_cons, follow_of_notMem absent, ih spacious]
  | circular known onPath behind ih =>
    rw [List.foldl_cons, follow_of_mem_path known onPath, ih spacious]
  | left known fresh old behind ih =>
    rw [List.foldl_cons, follow_of_mem_done known fresh old, ih spacious]
  | entered known fresh new inside behind ihInside ihBehind =>
    have further := spacious.append fresh known
    cases steps with
    | zero => exact absurd further.steps_pos (Nat.lt_irrefl 0)
    | succ steps =>
      rw [List.foldl_cons, follow_of_new known fresh new, visit_succ]
      simp only [ihInside further]
      exact ihBehind spacious

/-- The search behind all names of the table. -/
def searched (references : Table (List String)) : Search :=
  references.names.foldl (enter references) ⟨[], []⟩

/-- To enter a name is to follow it from the empty path. -/
theorem searched_eq (references : Table (List String)) :
    searched references =
      references.names.foldl (follow references references.names.length []) ⟨[], []⟩ := by
  refine List.foldl_ext _ _ _ fun search name known => ?_
  have contained : references.contains name = true := Table.contains_iff_mem_names.mpr known
  simp [enter, follow, contained]

/-- Without counting steps, the search of a table ends, and in one way only. -/
theorem follows_iff : Follows references [] references.names ⟨[], []⟩ later ↔
    later = searched references := by
  have spacious : Spacious references (references.names.length + 1) [] :=
    ⟨List.nodup_nil, List.nil_subset _, by simp⟩
  rw [searched_eq]
  constructor
  · intro follows
    exact (follows.foldl_eq spacious).symm
  · rintro rfl
    refine follows_foldl (fun target search known fresh => ?_) _ _
    exact exists_inner (spacious.append fresh known) target search

theorem follows_searched (references : Table (List String)) :
    Follows references [] references.names ⟨[], []⟩ (searched references) :=
  follows_iff.mpr rfl

/-! ### What is written down -/

/-- Different names of the table, each of which refers to the next one, and the last one to the
first. -/
structure IsCycle (references : Table (List String)) (cycle : List String) : Prop where
  ne_nil : cycle ≠ []
  unique : cycle.Nodup
  known : cycle ⊆ references.names
  refers : List.IsChain (Refers references) (cycle ++ cycle.take 1)

/-- Different names of the table, each of which refers to the next one. -/
structure Trail (references : Table (List String)) (path : List String) : Prop where
  unique : path.Nodup
  known : path ⊆ references.names
  refers : List.IsChain (Refers references) path

/-- All that is written down are cycles, and no two of them have the same names. -/
structure Search.Sound (references : Table (List String)) (search : Search) : Prop where
  cycles : ∀ cycle ∈ search.cycles, IsCycle references cycle
  distinct : search.cycles.Pairwise fun one other => ¬ ∀ name, name ∈ one ↔ name ∈ other

theorem Trail.append {target : String} (trail : Trail references path) (fresh : target ∉ path)
    (known : target ∈ references.names)
    (refers : List.IsChain (Refers references) (path ++ [target])) :
    Trail references (path ++ [target]) := by
  refine ⟨?_, ?_, refers⟩
  · rw [List.nodup_append]
    refine ⟨trail.unique, List.nodup_singleton target, ?_⟩
    rintro name member _ single rfl
    rw [List.mem_singleton.mp single] at member
    exact fresh member
  · simpa using ⟨trail.known, known⟩

/-- What a name on a path closes begins with the name. -/
theorem exists_dropWhile_eq {target : String} (onPath : target ∈ path) :
    ∃ front back, path = front ++ target :: back ∧
      path.dropWhile (· ≠ target) = target :: back := by
  obtain ⟨front, back, rfl, absent⟩ := List.eq_append_cons_of_mem onPath
  refine ⟨front, back, rfl, ?_⟩
  have skipped : ∀ name ∈ front, decide (name ≠ target) = true := by
    intro name member
    have different : name ≠ target := fun same => absent (same ▸ member)
    simpa using different
  rw [List.dropWhile_append_of_pos skipped]
  simp

/-- From a name on it, a path whose last name refers to that name is a cycle. -/
theorem Trail.isCycle {target : String} (trail : Trail references path) (onPath : target ∈ path)
    (refers : List.IsChain (Refers references) (path ++ [target])) :
    IsCycle references (path.dropWhile (· ≠ target)) := by
  obtain ⟨front, back, rfl, loop⟩ := exists_dropWhile_eq onPath
  rw [loop]
  refine ⟨List.cons_ne_nil _ _, (List.nodup_append.mp trail.unique).2.1, ?_, ?_⟩
  · exact fun name member => trail.known (List.mem_append_right _ member)
  · rw [List.append_assoc] at refers
    exact refers.right_of_append

theorem sameNames_of_forall_iff {one other : List String} (uniqueOne : one.Nodup)
    (uniqueOther : other.Nodup) (same : ∀ name, name ∈ one ↔ name ∈ other) :
    sameNames one other = true := by
  have length := ((List.perm_ext_iff_of_nodup uniqueOne uniqueOther).mpr same).length_eq
  simpa [sameNames, length] using fun name member => (same name).mp member

theorem Search.Sound.close {search : Search} (sound : search.Sound references)
    {cycle : List String} (isCycle : IsCycle references cycle) :
    (search.close cycle).Sound references := by
  unfold Search.close
  split
  · exact sound
  · rename_i new
    refine ⟨?_, ?_⟩
    · intro other member
      rcases List.mem_append.mp member with before | last
      · exact sound.cycles other before
      · rwa [List.mem_singleton.mp last]
    · refine List.pairwise_append.mpr ⟨sound.distinct, List.pairwise_singleton _ _, ?_⟩
      intro other member _ last same
      rw [List.mem_singleton.mp last] at same
      refine new (List.any_eq_true.mpr ⟨other, member, ?_⟩)
      exact sameNames_of_forall_iff isCycle.unique (sound.cycles other member).unique
        fun name => (same name).symm

/-- What follows a path whose last name refers to what is followed is sound if it was before. -/
theorem Follows.sound (follows : Follows references path targets earlier later)
    (trail : Trail references path)
    (ahead : ∀ target ∈ targets, target ∈ references.names →
      List.IsChain (Refers references) (path ++ [target]))
    (sound : earlier.Sound references) : later.Sound references := by
  induction follows with
  | done => exact sound
  | unknown absent behind ih =>
    exact ih trail (fun target member => ahead target (List.mem_cons_of_mem _ member)) sound
  | circular known onPath behind ih =>
    refine ih trail (fun target member => ahead target (List.mem_cons_of_mem _ member)) ?_
    exact sound.close (trail.isCycle onPath (ahead _ List.mem_cons_self known))
  | left known fresh old behind ih =>
    exact ih trail (fun target member => ahead target (List.mem_cons_of_mem _ member)) sound
  | entered known fresh new inside behind ihInside ihBehind =>
    have refers := ahead _ List.mem_cons_self known
    refine ihBehind trail (fun target member => ahead target (List.mem_cons_of_mem _ member)) ?_
    have kept := ihInside (trail.append fresh known refers) (fun target member known => ?_) sound
    · exact ⟨kept.cycles, kept.distinct⟩
    · rw [List.append_assoc]
      exact List.isChain_split.mpr ⟨refers, List.isChain_pair.mpr ⟨member, known⟩⟩

theorem sound_searched (references : Table (List String)) :
    (searched references).Sound references := by
  have trail : Trail references [] := ⟨List.nodup_nil, List.nil_subset _, List.isChain_nil⟩
  refine (follows_searched references).sound trail (fun target _ _ => ?_) ⟨by simp, .nil⟩
  exact List.isChain_singleton target

end TextGrammar.Cycle
