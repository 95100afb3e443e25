import Mathlib.Logic.Relation
import TextGrammar.Proofs.Cycle.Follows

/-!
What is found of names that lead to each other. Main statements: of the names that a name on a cycle
is connected with, the first one that the search enters is on a cycle that is written down; so the
search finds cycles exactly if there are any.
-/

namespace TextGrammar.Cycle

open Relation

/-- References lead from the name back to itself. -/
def OnCycle (references : Table (List String)) (name : String) : Prop :=
  TransGen (Refers references) name name

/-- References lead from each of the names to the other one. -/
def Connected (references : Table (List String)) (one other : String) : Prop :=
  ReflTransGen (Refers references) one other ∧ ReflTransGen (Refers references) other one

/-- A cycle that is written down goes through the name. -/
def Search.Reports (search : Search) (name : String) : Prop :=
  ∃ cycle ∈ search.cycles, name ∈ cycle

/-- What has been left refers only to what has been left, or to the path. -/
def Enclosed (references : Table (List String)) (path : List String) (search : Search) : Prop :=
  ∀ name ∈ search.done, ∀ target, Refers references name target →
    target ∈ search.done ∨ target ∈ path

variable {references : Table (List String)} {path targets : List String}
  {earlier between later search : Search} {name other target : String}

/-! ### Names that lead to each other -/

namespace Connected

theorem refl (name : String) : Connected references name name := ⟨.refl, .refl⟩

theorem symm (connected : Connected references name other) : Connected references other name :=
  ⟨connected.2, connected.1⟩

theorem trans {third : String} (first : Connected references name other)
    (second : Connected references other third) : Connected references name third :=
  ⟨first.1.trans second.1, second.2.trans first.2⟩

end Connected

theorem OnCycle.of_connected (circular : OnCycle references name)
    (connected : Connected references name other) : OnCycle references other :=
  (TransGen.trans_right connected.2 circular).trans_left connected.1

/-- A name on a cycle refers to another one. -/
theorem OnCycle.exists_next (circular : OnCycle references name) :
    ∃ next, Refers references name next ∧ OnCycle references next := by
  obtain ⟨next, refers, leads⟩ := TransGen.head'_iff.mp circular
  exact ⟨next, refers, circular.of_connected ⟨.single refers, leads⟩⟩

/-- The names of a cycle lead to each other. -/
theorem IsCycle.leads {cycle : List String} (isCycle : IsCycle references cycle)
    (member : name ∈ cycle) (inside : other ∈ cycle) : TransGen (Refers references) name other := by
  obtain ⟨first, rest, rfl⟩ := List.exists_cons_of_ne_nil isCycle.ne_nil
  have chain := isCycle.refers.imp fun _ _ refers => TransGen.single refers
  have around : List.Pairwise (TransGen (Refers references)) (first :: (rest ++ [first])) :=
    List.isChain_iff_pairwise.mp chain
  have toFirst : TransGen (Refers references) name first := by
    rw [← List.cons_append] at around
    obtain ⟨-, -, across⟩ := List.pairwise_append.mp around
    exact across name member first (List.mem_singleton_self first)
  have fromFirst : TransGen (Refers references) first other := by
    refine (List.pairwise_cons.mp around).1 other ?_
    rcases List.mem_cons.mp inside with rfl | inside
    · exact List.mem_append_right _ (List.mem_singleton_self _)
    · exact List.mem_append_left _ inside
  exact toFirst.trans fromFirst

theorem IsCycle.connected {cycle : List String} (isCycle : IsCycle references cycle)
    (member : name ∈ cycle) (inside : other ∈ cycle) : Connected references name other :=
  ⟨(isCycle.leads member inside).to_reflTransGen, (isCycle.leads inside member).to_reflTransGen⟩

/-! ### What is kept and what is reported -/

theorem Search.Grows.reports (grows : Search.Grows earlier later) (reports : earlier.Reports name) :
    later.Reports name := by
  obtain ⟨cycle, member, inside⟩ := reports
  exact ⟨cycle, grows.cycles.subset member, inside⟩

/-- A closed cycle reports its names, even if only one with the same names is there. -/
theorem reports_close {cycle : List String} (member : name ∈ cycle) (search : Search) :
    (search.close cycle).Reports name := by
  unfold Search.close
  split
  · rename_i known
    obtain ⟨kept, present, same⟩ := List.any_eq_true.mp known
    have covered : ∀ name ∈ cycle, name ∈ kept := by
      simpa using (Bool.and_eq_true_iff.mp same).2
    exact ⟨kept, present, covered name member⟩
  · exact ⟨cycle, List.mem_append_right _ (List.mem_singleton_self cycle), member⟩

theorem grows_leave (search : Search) (name : String) : Search.Grows search (search.leave name) :=
  ⟨List.prefix_refl _, List.subset_cons_self _ _⟩

theorem Follows.grows (follows : Follows references path targets earlier later) :
    Search.Grows earlier later := by
  induction follows with
  | done => exact Search.Grows.refl _
  | unknown _ _ ih | left _ _ _ _ ih => exact ih
  | circular _ _ _ ih => exact (grows_close _ _).trans ih
  | entered _ _ _ _ _ ihInside ihBehind =>
    exact (ihInside.trans (grows_leave _ _)).trans ihBehind

theorem close_done (search : Search) (cycle : List String) :
    (search.close cycle).done = search.done := by
  unfold Search.close
  split <;> rfl

theorem Enclosed.close (enclosed : Enclosed references path search) (cycle : List String) :
    Enclosed references path (search.close cycle) := by
  rwa [Enclosed, close_done]

theorem Enclosed.longer (enclosed : Enclosed references path search) (name : String) :
    Enclosed references (path ++ [name]) search := fun source member target refers =>
  (enclosed source member target refers).imp_right (List.mem_append_left [name])

/-- A name may be left if its references have been, or are on its path. -/
theorem Enclosed.leave (enclosed : Enclosed references (path ++ [name]) search)
    (ahead : ∀ target ∈ (references.get? name).getD [], target ∈ references.names →
      target ∈ search.done ∨ target ∈ path ++ [name]) :
    Enclosed references path (search.leave name) := by
  intro source member target refers
  have found : target ∈ search.done ∨ target ∈ path ++ [name] := by
    rcases List.mem_cons.mp member with rfl | member
    · exact ahead target refers.1 refers.2
    · exact enclosed source member target refers
  rcases found with old | onPath
  · exact .inl (List.mem_cons_of_mem _ old)
  · rcases List.mem_append.mp onPath with onPath | last
    · exact .inr onPath
    · rw [List.mem_singleton.mp last]
      exact .inl List.mem_cons_self

/-- Behind names that are followed, all of them have been left or are on the path. -/
theorem Follows.enclosed (follows : Follows references path targets earlier later)
    (enclosed : Enclosed references path earlier) :
    Enclosed references path later ∧
      ∀ target ∈ targets, target ∈ references.names → target ∈ later.done ∨ target ∈ path := by
  induction follows with
  | done => exact ⟨enclosed, by simp⟩
  | unknown absent _ ih =>
    obtain ⟨kept, all⟩ := ih enclosed
    refine ⟨kept, List.forall_mem_cons.mpr ⟨fun known => absurd known absent, all⟩⟩
  | circular _ onPath _ ih =>
    obtain ⟨kept, all⟩ := ih (enclosed.close _)
    exact ⟨kept, List.forall_mem_cons.mpr ⟨fun _ => .inr onPath, all⟩⟩
  | left _ _ old behind ih =>
    obtain ⟨kept, all⟩ := ih enclosed
    exact ⟨kept, List.forall_mem_cons.mpr ⟨fun _ => .inl (behind.grows.done old), all⟩⟩
  | entered _ _ _ _ behind ihInside ihBehind =>
    obtain ⟨inner, ahead⟩ := ihInside (enclosed.longer _)
    obtain ⟨kept, all⟩ := ihBehind (inner.leave ahead)
    refine ⟨kept, List.forall_mem_cons.mpr ⟨fun _ => .inl ?_, all⟩⟩
    exact behind.grows.done List.mem_cons_self

/-- Whatever leads from a name that has been left to a connected one has been left, if the path has
no name of theirs. -/
theorem Enclosed.mem_done (enclosed : Enclosed references path search)
    (apart : ∀ third, Connected references name third → third ∉ path)
    (member : name ∈ search.done) (connected : Connected references name other) :
    other ∈ search.done := by
  obtain ⟨leads, back⟩ := connected
  induction leads with
  | refl => exact member
  | tail front refers ih =>
    have old := ih (ReflTransGen.head refers back)
    rcases enclosed _ old _ refers with old | onPath
    · exact old
    · exact absurd onPath (apart _ ⟨front.tail refers, back⟩)

/-- A reference back to the path is reported. -/
theorem Follows.reports (follows : Follows references path targets earlier later)
    (onPath : target ∈ path) :
    (target ∈ targets → target ∈ references.names → later.Reports target) ∧
      ∀ name ∈ later.done, name ∉ earlier.done → Refers references name target →
        later.Reports target := by
  induction follows with
  | done => exact ⟨by simp, fun name member new => absurd member new⟩
  | unknown absent _ ih =>
    refine ⟨fun member known => ?_, (ih onPath).2⟩
    rcases List.mem_cons.mp member with rfl | member
    · exact absurd known absent
    · exact (ih onPath).1 member known
  | @circular path rest closed earlier later known _ behind ih =>
    obtain ⟨ahead, new⟩ := ih onPath
    rw [close_done] at new
    refine ⟨fun member known => ?_, new⟩
    rcases List.mem_cons.mp member with rfl | member
    · obtain ⟨front, back, -, loop⟩ := exists_dropWhile_eq onPath
      refine behind.grows.reports (reports_close ?_ earlier)
      rw [loop]
      exact List.mem_cons_self
    · exact ahead member known
  | left known fresh old behind ih =>
    refine ⟨fun member known => ?_, (ih onPath).2⟩
    rcases List.mem_cons.mp member with rfl | member
    · exact absurd onPath fresh
    · exact (ih onPath).1 member known
  | @entered path rest inner earlier between later known fresh new inside behind ihInside
      ihBehind =>
    obtain ⟨ahead, newInside⟩ := ihInside (List.mem_append_left [inner] onPath)
    obtain ⟨aheadBehind, newBehind⟩ := ihBehind onPath
    have kept (reports : between.Reports target) : later.Reports target :=
      behind.grows.reports ((grows_leave between inner).reports reports)
    refine ⟨fun member known => ?_, fun name member isNew refers => ?_⟩
    · rcases List.mem_cons.mp member with rfl | member
      · exact absurd onPath fresh
      · exact aheadBehind member known
    · by_cases left : name ∈ (between.leave inner).done
      · rcases List.mem_cons.mp left with rfl | left
        · exact kept (ahead refers.1 refers.2)
        · exact kept (newInside name left isNew refers)
      · exact newBehind name member left refers

/-! ### The first name of a component -/

/-- A name on a cycle is reported if it is entered before all names that it is connected with. -/
theorem reports_of_first
    (inside : Follows references (path ++ [name]) ((references.get? name).getD []) earlier between)
    (enclosed : Enclosed references path earlier) (circular : OnCycle references name)
    (first : ∀ other, Connected references name other → other ∉ path ∧ other ∉ earlier.done) :
    between.Reports name := by
  obtain ⟨inner, ahead⟩ := inside.enclosed (enclosed.longer name)
  have onPath : name ∈ path ++ [name] := by simp
  obtain ⟨aheadReports, newReports⟩ := inside.reports onPath
  -- the last name on the way around the cycle is the name itself, or was left inside
  obtain ⟨last, leads, refers⟩ := TransGen.tail'_iff.mp circular
  have connected : Connected references name last := ⟨leads, .single refers⟩
  by_cases same : last = name
  · rw [same] at refers
    exact aheadReports refers.1 refers.2
  · have left : last ∈ (between.leave name).done :=
      (inner.leave ahead).mem_done (fun third connected => (first third connected).1)
        List.mem_cons_self connected
    rcases List.mem_cons.mp left with again | left
    · exact absurd again same
    · exact newReports last left (first last connected).2 refers

/-- Of the names that a name on a cycle is connected with, one is reported behind the search that
entered all of them. -/
theorem Follows.exists_reports (follows : Follows references path targets earlier later)
    (enclosed : Enclosed references path earlier) (left : name ∈ later.done)
    (circular : OnCycle references name)
    (apart : ∀ other, Connected references name other → other ∉ path ∧ other ∉ earlier.done) :
    ∃ other, Connected references name other ∧ later.Reports other := by
  induction follows with
  | done => exact absurd left (apart name (.refl name)).2
  | unknown _ _ ih | left _ _ _ _ ih => exact ih enclosed left apart
  | circular _ _ _ ih =>
    refine ih (enclosed.close _) left ?_
    rwa [close_done]
  | @entered path rest inner earlier between later known fresh new inside behind ihInside
      ihBehind =>
    have kept {other : String} (reports : between.Reports other) : later.Reports other :=
      behind.grows.reports ((grows_leave between inner).reports reports)
    by_cases connected : Connected references name inner
    · refine ⟨inner, connected, kept ?_⟩
      refine reports_of_first inside enclosed (circular.of_connected connected) fun other also => ?_
      exact apart other (connected.trans also)
    · by_cases leftInside : name ∈ between.done
      · obtain ⟨other, also, reports⟩ :=
          ihInside (enclosed.longer inner) leftInside fun other also => by
            refine ⟨fun onPath => ?_, (apart other also).2⟩
            rcases List.mem_append.mp onPath with onPath | last
            · exact (apart other also).1 onPath
            · rw [List.mem_singleton.mp last] at also
              exact connected also
        exact ⟨other, also, kept reports⟩
      · -- nothing connected with the name was left inside, or the name would have been too
        obtain ⟨innerEnclosed, ahead⟩ := inside.enclosed (enclosed.longer inner)
        have outer := innerEnclosed.leave ahead
        refine ihBehind outer left fun other also => ⟨(apart other also).1, fun old => ?_⟩
        have back := outer.mem_done
          (fun third connected => (apart third (also.trans connected)).1) old also.symm
        rcases List.mem_cons.mp back with same | back
        · exact connected (same ▸ .refl name)
        · exact leftInside back

/-! ### The whole search -/

theorem enclosed_nil (path : List String) : Enclosed references path ⟨[], []⟩ :=
  fun _ member => nomatch member

/-- A name that another one refers to is one of the table. -/
theorem OnCycle.mem_names (circular : OnCycle references name) : name ∈ references.names := by
  obtain ⟨last, -, refers⟩ := TransGen.tail'_iff.mp circular
  exact refers.2

/-- Every name on a cycle is connected with the names of a cycle that is found. -/
theorem exists_mem_find (circular : OnCycle references name) :
    ∃ cycle ∈ find references, ∀ member ∈ cycle, Connected references name member := by
  have follows := follows_searched references
  have left : name ∈ (searched references).done := by
    obtain ⟨-, all⟩ := follows.enclosed (enclosed_nil [])
    simpa using all name circular.mem_names circular.mem_names
  obtain ⟨other, connected, cycle, found, inside⟩ :=
    follows.exists_reports (enclosed_nil []) left circular (by simp)
  have isCycle := (sound_searched references).cycles cycle found
  exact ⟨cycle, found, fun member also => connected.trans (isCycle.connected inside also)⟩

/-- Nothing is found exactly if no name is on a cycle. -/
theorem find_eq_nil_iff : find references = [] ↔ ∀ name, ¬ OnCycle references name := by
  constructor
  · intro none name circular
    obtain ⟨cycle, found, -⟩ := exists_mem_find circular
    rw [none] at found
    cases found
  · intro none
    refine List.eq_nil_iff_forall_not_mem.mpr fun cycle found => ?_
    have isCycle := (sound_searched references).cycles cycle found
    obtain ⟨first, rest, rfl⟩ := List.exists_cons_of_ne_nil isCycle.ne_nil
    exact none first (isCycle.leads List.mem_cons_self List.mem_cons_self)

/-- The search ends, and without counting steps it does so in one way only. It finds nothing exactly
if there is no cycle of references between names of the table. What it finds are cycles, written
with the first name repeated at the end, and no two of them have the same names. -/
theorem find_exact (references : Table (List String)) :
    (∃! later, Follows references [] references.names ⟨[], []⟩ later) ∧
    (∀ later, Follows references [] references.names ⟨[], []⟩ later →
      later.cycles = find references) ∧
    (find references = [] ↔ ∀ name, ¬ OnCycle references name) ∧
    (∀ cycle ∈ find references, IsCycle references cycle ∧
      ∃ first rest, cycle = first :: rest ∧
        text cycle = " -> ".intercalate (first :: (rest ++ [first]))) ∧
    (find references).Pairwise fun one other => ¬ ∀ name, name ∈ one ↔ name ∈ other := by
  have sound := sound_searched references
  refine ⟨⟨_, follows_searched references, fun other follows => follows_iff.mp follows⟩,
    fun later follows => ?_, find_eq_nil_iff, fun cycle found => ?_, sound.distinct⟩
  · rw [follows_iff.mp follows]
    rfl
  · have isCycle := sound.cycles cycle found
    obtain ⟨first, rest, rfl⟩ := List.exists_cons_of_ne_nil isCycle.ne_nil
    exact ⟨isCycle, first, rest, rfl, rfl⟩

end TextGrammar.Cycle
