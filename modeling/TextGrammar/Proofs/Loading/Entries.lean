import Mathlib.Data.List.Forall2
import TextGrammar.Proofs.Condition.Compiled
import TextGrammar.Proofs.Config.Unchecked
import TextGrammar.Proofs.Loading.Plan
import TextGrammar.Proofs.Rule.Branches
import TextGrammar.Proofs.Rule.Decision

/-!
Raw entries of conditional rules and the branches that they become. Main statements: branches choose
the values that their entries do; and entries without some whose condition cannot be read, or
with default ones moved, become branches in the same two orders.
-/

namespace TextGrammar

open Condition Effect

/-! ### Raw entries -/

namespace Entry

/-- The value under a key of a raw entry, null if the entry is no map. -/
def field (entry : Value) (key : String) : Value := entry.fieldsOrEmpty.get key

/-- The entry has default values, and so no condition whatever else stands in it. -/
def isDefault (entry : Value) : Bool := !(field entry "default").isNull

/-- The entry has a condition whose text denotes the tree. -/
def Means (entry : Value) (tree : Tree) : Prop :=
  isDefault entry = false ∧ ∃ text, (field entry "if").text = .ok text ∧ Denotes text tree

/-- The entry has a condition, and its text is one. -/
def Readable (entry : Value) : Prop := ∃ tree, Means entry tree

/-- The entry has a condition, and its text is one with a value that counts as true. -/
def Holds (context entry : Value) : Prop :=
  ∃ tree value, Means entry tree ∧ tree.evaluate context = .ok value ∧ isTrue value = true

/-- The values that entries choose in a context: those of the first entry whose condition holds; if
there is none, the default values of the first entry that has such; otherwise none at all. -/
inductive Chooses (context : Value) (entries : List Value) : List Value → Prop where
  | guarded {before behind : List Value} {entry : Value} {values : List Value}
      (split : entries = before ++ entry :: behind)
      (earlier : ∀ other ∈ before, ¬ Holds context other) (holds : Holds context entry)
      (given : (field entry "then").elements = .ok values) : Chooses context entries values
  | default {before behind : List Value} {entry : Value} {values : List Value}
      (never : ∀ other ∈ entries, ¬ Holds context other)
      (split : entries = before ++ entry :: behind)
      (earlier : ∀ other ∈ before, isDefault other = false) (set : isDefault entry = true)
      (given : (field entry "default").elements = .ok values) : Chooses context entries values
  | nothing (never : ∀ other ∈ entries, ¬ Holds context other)
      (noDefault : ∀ other ∈ entries, isDefault other = false) : Chooses context entries []

/-- The others are the entries without some whose condition cannot be read. -/
inductive Pruned : List Value → List Value → Prop where
  | nil : Pruned [] []
  | keep {entry : Value} {entries others : List Value} (rest : Pruned entries others) :
      Pruned (entry :: entries) (entry :: others)
  | delete {entry : Value} {entries others : List Value} (unset : isDefault entry = false)
      (unreadable : ¬ Readable entry) (rest : Pruned entries others) :
      Pruned (entry :: entries) others

/-- The default entries are the same in the same order, and so are all that are none. -/
def Moved (entries others : List Value) : Prop :=
  others.filter isDefault = entries.filter isDefault ∧
    (others.filter fun entry => !isDefault entry) = entries.filter fun entry => !isDefault entry

/-! ### Branches -/

/-- The branch that an entry becomes. -/
inductive Becomes : Value → Branch → Prop where
  | default {entry : Value} {values : List Value} (set : isDefault entry = true)
      (given : (field entry "default").elements = .ok values) :
      Becomes entry ⟨none, [], some values⟩
  | guarded {entry : Value} {text : String} {values : List Value} {predicate : Predicate}
      (unset : isDefault entry = false) (condition : (field entry "if").truthy = true)
      (shown : (field entry "if").text = .ok text) (named : text ≠ "")
      (given : (field entry "then").elements = .ok values)
      (compiled : Predicate.compile text = .ok predicate) :
      Becomes entry ⟨some (.condition predicate), values, none⟩

end Entry

/-- The branch that a normalised entry is made to. -/
inductive ConditionEntry.Makes : ConditionEntry → Branch → Prop where
  | default {values : List Value} : Makes (.default values) ⟨none, [], some values⟩
  | guarded {condition : Value} {values : List Value} {predicate : Predicate}
      (truthy : condition.truthy = true)
      (compiled : Predicate.compileValue condition = .ok predicate) :
      Makes (.guarded condition (some values)) ⟨some (.condition predicate), values, none⟩

namespace Load

variable {ε ω : Type} {config : ConditionEntry} {configs : List ConditionEntry} {made : Branch}

theorem branch_eq_ok_iff (rule : String) (index : Nat) :
    (∃ notes, branch rule index config = .ok (made, notes)) ↔ config.Makes made := by
  constructor
  · rintro ⟨notes, branched⟩
    unfold branch at branched
    split at branched
    · cases branched
      exact .default
    · split at branched
      · rename_i truthy
        split at branched
        · rename_i predicate compiled
          cases branched
          exact .guarded truthy compiled
        · cases branched
      · cases branched
    · cases branched
    · cases branched
  · intro makes
    cases makes with
    | default => exact ⟨[], rfl⟩
    | @guarded condition values predicate truthy compiled =>
      exact ⟨predicate.notes, by simp [branch, truthy, compiled]⟩

theorem branches_eq_ok_iff (rule : String) (index : Nat) (loading : Loading ε)
    {branches : List Branch} :
    ((Load.branches rule index configs : Load ε _) loading).1 = .ok branches ↔
      List.Forall₂ ConditionEntry.Makes configs branches := by
  induction configs generalizing index loading branches with
  | nil =>
    constructor
    · intro given
      cases given
      exact .nil
    · intro makes
      cases makes
      rfl
  | cons config rest ih =>
    rw [Load.branches, bind_fst_eq_ok_iff, List.forall₂_cons_left_iff]
    constructor
    · rintro ⟨⟨first, notes⟩, later, branched, behind⟩
      obtain ⟨_, reported, -, behind⟩ := bind_fst_eq_ok_iff.mp behind
      obtain ⟨more, _, others, given⟩ := bind_fst_eq_ok_iff.mp behind
      cases given
      exact ⟨first, more, (branch_eq_ok_iff rule index).mp ⟨notes, congrArg Prod.fst branched⟩,
        (ih (index + 1) reported).mp (congrArg Prod.fst others), rfl⟩
    · rintro ⟨first, more, makes, others, rfl⟩
      obtain ⟨notes, branched⟩ := (branch_eq_ok_iff rule index).mpr makes
      refine ⟨(first, notes), loading, by rw [branched]; rfl, ?_⟩
      refine bind_fst_eq_ok_iff.mpr ⟨(), _, rfl, bind_fst_eq_ok_iff.mpr ?_⟩
      have given := (ih (index + 1) { loading with notes := loading.notes ++ notes }).mpr others
      exact ⟨more, _, Prod.ext given rfl, rfl⟩

theorem registered_conditional_eq_ok_iff (registry : Registry ω) (name : String)
    {registration : Registration ω} :
    registered registry name (.conditional configs) = .ok registration ↔
      ∃ branches, List.Forall₂ ConditionEntry.Makes configs branches ∧
        registration = .conditional branches := by
  show ((branches name 0 configs >>= fun given => pure (.conditional given) :
    Load (Recorder ω) (Registration ω)) ⟨⟨fun _ => false, []⟩, []⟩).1 = _ ↔ _
  rw [bind_fst_eq_ok_iff]
  constructor
  · rintro ⟨branches, later, given, same⟩
    cases same
    exact ⟨branches, (branches_eq_ok_iff ..).mp (congrArg Prod.fst given), rfl⟩
  · rintro ⟨branches, makes, rfl⟩
    exact ⟨branches, _, Prod.ext ((branches_eq_ok_iff ..).mpr makes) rfl, rfl⟩

end Load

/-! ### From entries to branches -/

namespace Entry

open Tagged

variable {entry : Value} {entries others : List Value} {branch other : Branch}
  {branches : List Branch}

/-- What is no map counts as an entry in which nothing stands. -/
theorem conditionEntry_eq (entry : Value) :
    conditionEntry entry =
      if isDefault entry then do
        return .default (← (field entry "default").elements)
      else if (field entry "if").truthy && !(field entry "then").isNull then do
        let text ← (field entry "if").text
        return .guarded (.str text) (some (← (field entry "then").elements))
      else .ok (.other entry) := by
  cases entry with
  | scalar | list | map => rfl

/-- An entry becomes a branch by being normalised first. -/
theorem becomes_iff :
    Becomes entry branch ↔ ∃ config, conditionEntry entry = .ok config ∧ config.Makes branch := by
  rw [conditionEntry_eq]
  constructor
  · intro becomes
    cases becomes with
    | @default values set given =>
      refine ⟨.default values, ?_, .default⟩
      rw [if_pos set, given]
      rfl
    | @guarded text values predicate unset truthy shown named given compiled =>
      have present : (field entry "then").isNull = false := by
        refine Bool.eq_false_iff.mpr fun null => ?_
        rw [Value.isNull_iff.mp null] at given
        cases given
      refine ⟨.guarded (.str text) (some values), ?_,
        .guarded (Value.truthy_str.mpr named) compiled⟩
      rw [unset, truthy, present, shown, given]
      rfl
  · rintro ⟨config, normalised, makes⟩
    split at normalised
    · rename_i set
      obtain ⟨values, given, same⟩ := bind_eq_ok.mp normalised
      cases same
      cases makes
      exact .default set given
    · rename_i unset
      split at normalised
      · rename_i both
        obtain ⟨truthy, -⟩ := Bool.and_eq_true_iff.mp both
        obtain ⟨text, shown, normalised⟩ := bind_eq_ok.mp normalised
        obtain ⟨values, given, same⟩ := bind_eq_ok.mp normalised
        cases same
        cases makes with
        | guarded named compiled =>
          have noDefault := Bool.eq_false_iff.mpr unset
          exact .guarded noDefault truthy shown (Value.truthy_str.mp named) given compiled
      · cases normalised
        cases makes

theorem becomes_all_iff :
    List.Forall₂ Becomes entries branches ↔ ∃ configs,
      entries.mapM conditionEntry = .ok configs ∧
        List.Forall₂ ConditionEntry.Makes configs branches := by
  simp only [mapM_eq_ok_iff]
  induction entries generalizing branches with
  | nil => simp
  | cons entry rest ih =>
    simp only [List.forall₂_cons_left_iff, ih, becomes_iff]
    constructor
    · rintro ⟨branch, more, ⟨config, normalised, makes⟩, ⟨configs, others, made⟩, rfl⟩
      exact ⟨config :: configs, ⟨config, configs, normalised, others, rfl⟩, .cons makes made⟩
    · rintro ⟨_, ⟨config, configs, normalised, others, rfl⟩, made⟩
      cases made with
      | cons makes made => exact ⟨_, _, ⟨config, normalised, makes⟩, ⟨configs, others, made⟩, rfl⟩

/-- An entry becomes no two branches. -/
theorem Becomes.unique (first : Becomes entry branch) (second : Becomes entry other) :
    branch = other := by
  cases first with
  | default set given =>
    cases second with
    | default _ given' =>
      cases given.symm.trans given'
      rfl
    | guarded unset => cases set.symm.trans unset
  | guarded unset _ shown _ given compiled =>
    cases second with
    | default set => cases set.symm.trans unset
    | guarded _ _ shown' _ given' compiled' =>
      cases shown.symm.trans shown'
      cases given.symm.trans given'
      cases compiled.symm.trans compiled'
      rfl

theorem becomes_unique : Relator.RightUnique (List.Forall₂ Becomes) :=
  Relator.RightUnique.forall₂ fun _ _ _ first second => first.unique second

theorem Becomes.isDefault_eq (becomes : Becomes entry branch) :
    branch.isDefault = isDefault entry := by
  cases becomes with
  | default set => rw [set]; rfl
  | guarded unset => rw [unset]; rfl

/-- The predicate of a branch has the tree that its entry means. -/
theorem means_iff {text : String} {predicate : Predicate} (unset : isDefault entry = false)
    (shown : (field entry "if").text = .ok text)
    (compiled : Predicate.compile text = .ok predicate) {tree : Tree} :
    Means entry tree ↔ predicate.reading = .ok tree := by
  have trees := (Predicate.tree?_of_compile compiled).2 tree
  rw [← Predicate.tree?_eq_some_iff, trees]
  constructor
  · rintro ⟨-, other, shown', denotes⟩
    cases shown.symm.trans shown'
    exact denotes
  · intro denotes
    exact ⟨unset, text, shown, denotes⟩

theorem Becomes.isReadable_iff (becomes : Becomes entry branch) :
    branch.isReadable = true ↔ Readable entry := by
  cases becomes with
  | default set => simp [Branch.isReadable, Readable, Means, set]
  | @guarded text values predicate unset _ shown _ _ compiled =>
    have readable : predicate.tree?.isSome ↔ ∃ tree, predicate.reading = .ok tree := by
      simp only [Option.isSome_iff_exists, Predicate.tree?_eq_some_iff]
    simp only [Readable, means_iff unset shown compiled, ← readable]
    rfl

/-- The guard of a branch says yes in a context where the condition of its entry holds, and no where
it does not. -/
theorem Becomes.answers {context : Table String} {given : Value} (becomes : Becomes entry branch)
    (presents : given.Presents context) :
    (Holds given entry → ∃ guard, branch.guard = some guard ∧ guard.Answers context (.ok true)) ∧
    (¬ Holds given entry → branch.Passed context) := by
  cases becomes with
  | default set =>
    constructor
    · rintro ⟨tree, value, ⟨unset, -⟩, -⟩
      cases set.symm.trans unset
    · exact fun _ => nofun
  | @guarded text values predicate unset _ shown _ _ compiled =>
    have same : Holds given entry ↔ predicate.TrueIn given := by
      simp only [Holds, Predicate.TrueIn, means_iff unset shown compiled]
    rw [same]
    constructor
    · intro holds
      exact ⟨_, rfl, (Guard.answers_condition presents).mpr (iff_of_true rfl holds)⟩
    · rintro fails guard ⟨⟩
      exact (Guard.answers_condition presents).mpr (iff_of_false Bool.false_ne_true fails)

/-! ### What branches give -/

theorem becomes_split {before behind : List Value}
    (becomes : List.Forall₂ Becomes (before ++ entry :: behind) branches) :
    ∃ first branch second, branches = first ++ branch :: second ∧
      List.Forall₂ Becomes before first ∧ Becomes entry branch := by
  have taken := List.forall₂_take before.length becomes
  have dropped := List.forall₂_drop before.length becomes
  rw [List.take_left] at taken
  rw [List.drop_left] at dropped
  obtain ⟨branch, second, one, -, rest⟩ := List.forall₂_cons_left_iff.mp dropped
  refine ⟨branches.take before.length, branch, second, ?_, taken, one⟩
  rw [← rest, List.take_append_drop]

theorem exists_entry_of_mem (becomes : List.Forall₂ Becomes entries branches)
    (member : branch ∈ branches) : ∃ entry ∈ entries, Becomes entry branch := by
  induction becomes with
  | nil => cases member
  | cons one _ ih =>
    rcases List.mem_cons.mp member with rfl | later
    · exact ⟨_, List.mem_cons_self, one⟩
    · obtain ⟨entry, present, becomes⟩ := ih later
      exact ⟨entry, List.mem_cons_of_mem _ present, becomes⟩

theorem passed_of_becomes {context : Table String} {given : Value}
    (presents : given.Presents context) (becomes : List.Forall₂ Becomes entries branches)
    (never : ∀ entry ∈ entries, ¬ Holds given entry) :
    ∀ branch ∈ branches, branch.Passed context := by
  intro branch member
  obtain ⟨entry, present, one⟩ := exists_entry_of_mem becomes member
  exact (one.answers presents).2 (never entry present)

theorem undefaulted_of_becomes (becomes : List.Forall₂ Becomes entries branches)
    (never : ∀ entry ∈ entries, isDefault entry = false) :
    ∀ branch ∈ branches, branch.guard = none → branch.fallback = none := by
  intro branch member
  obtain ⟨entry, present, one⟩ := exists_entry_of_mem becomes member
  cases one with
  | default set => cases set.symm.trans (never entry present)
  | guarded => exact nofun

theorem Becomes.values_eq {values : List Value} (becomes : Becomes entry branch)
    (unset : isDefault entry = false) (given : (field entry "then").elements = .ok values) :
    branch.values = values := by
  cases becomes with
  | default set => cases set.symm.trans unset
  | guarded _ _ _ _ given' => exact Except.ok.inj (given'.symm.trans given)

theorem Becomes.fallback_eq {values : List Value} (becomes : Becomes entry branch)
    (set : isDefault entry = true) (given : (field entry "default").elements = .ok values) :
    branch.guard = none ∧ branch.fallback = some values := by
  cases becomes with
  | default _ given' => exact ⟨rfl, congrArg some (Except.ok.inj (given'.symm.trans given))⟩
  | guarded unset => cases set.symm.trans unset

/-- Branches come to the values that their entries choose. -/
theorem decides_of_chooses {context : Table String} {given : Value} {values : List Value}
    (presents : given.Presents context) (becomes : List.Forall₂ Becomes entries branches)
    (chooses : Chooses given entries values) : Decides context branches (.ok values) := by
  cases chooses with
  | guarded split earlier holds elements =>
    subst split
    obtain ⟨first, branch, second, rfl, before, one⟩ := becomes_split becomes
    obtain ⟨guard, guards, answers⟩ := (one.answers presents).1 holds
    obtain ⟨tree, value, ⟨unset, -⟩, -⟩ := holds
    rw [← one.values_eq unset elements]
    exact .guarded rfl (passed_of_becomes presents before earlier) guards answers
  | default never split earlier set elements =>
    have passed := passed_of_becomes presents becomes never
    subst split
    obtain ⟨first, branch, second, rfl, before, one⟩ := becomes_split becomes
    obtain ⟨unguarded, offers⟩ := one.fallback_eq set elements
    exact .default passed rfl (undefaulted_of_becomes before earlier) unguarded offers
  | nothing never noDefault =>
    exact .nothing (passed_of_becomes presents becomes never)
      (undefaulted_of_becomes becomes noDefault)

/-- If some entry has the property, there is a first one that has it. -/
theorem exists_first {property : Value → Prop} (some : ∃ entry ∈ entries, property entry) :
    ∃ before entry behind, entries = before ++ entry :: behind ∧
      (∀ other ∈ before, ¬ property other) ∧ property entry := by
  classical
  cases found : entries.find? fun entry => decide (property entry) with
  | none =>
    obtain ⟨entry, member, has⟩ := some
    exact absurd has (by simpa using List.find?_eq_none.mp found entry member)
  | some entry =>
    obtain ⟨has, before, behind, split, earlier⟩ := List.find?_eq_some_iff_append.mp found
    exact ⟨before, entry, behind, split, by simpa using earlier, by simpa using has⟩

/-- Entries that become branches choose something in every context. -/
theorem exists_chooses (context : Value) (becomes : List.Forall₂ Becomes entries branches) :
    ∃ values, Chooses context entries values := by
  by_cases some : ∃ entry ∈ entries, Holds context entry
  · obtain ⟨before, entry, behind, split, earlier, holds⟩ := exists_first some
    obtain ⟨_, _, _, -, -, one⟩ := becomes_split (split ▸ becomes)
    cases one with
    | default set =>
      obtain ⟨tree, value, ⟨unset, -⟩, -⟩ := holds
      cases set.symm.trans unset
    | guarded _ _ _ _ given => exact ⟨_, .guarded split earlier holds given⟩
  · have never : ∀ entry ∈ entries, ¬ Holds context entry :=
      fun entry member holds => some ⟨entry, member, holds⟩
    by_cases set : ∃ entry ∈ entries, isDefault entry = true
    · obtain ⟨before, entry, behind, split, earlier, set⟩ := exists_first set
      obtain ⟨_, _, _, -, -, one⟩ := becomes_split (split ▸ becomes)
      cases one with
      | default set given => exact ⟨_, .default never split (by simpa using earlier) set given⟩
      | guarded unset => cases set.symm.trans unset
    · exact ⟨[], .nothing never (by simpa using set)⟩

/-! ### Deleting and moving -/

/-- The two orders of branches that decide what they give are the same. -/
def SameOrders (branches others : List Branch) : Prop :=
  branches.filter Branch.isDefault = others.filter Branch.isDefault ∧
    branches.filter Branch.isReadable = others.filter Branch.isReadable

theorem Pruned.becomes (pruned : Pruned entries others)
    (becomes : List.Forall₂ Becomes entries branches) :
    ∃ left, List.Forall₂ Becomes others left ∧ SameOrders left branches := by
  induction pruned generalizing branches with
  | nil => exact ⟨branches, becomes, rfl, rfl⟩
  | keep _ ih =>
    obtain ⟨branch, more, one, rest, rfl⟩ := List.forall₂_cons_left_iff.mp becomes
    obtain ⟨left, becomes, defaults, readable⟩ := ih rest
    refine ⟨branch :: left, .cons one becomes, ?_, ?_⟩
    · rw [List.filter_cons, List.filter_cons, defaults]
    · rw [List.filter_cons, List.filter_cons, readable]
  | delete unset unreadable _ ih =>
    obtain ⟨branch, more, one, rest, rfl⟩ := List.forall₂_cons_left_iff.mp becomes
    obtain ⟨left, becomes, defaults, readable⟩ := ih rest
    have noDefault : ¬ branch.isDefault = true := by simp [one.isDefault_eq, unset]
    have noGuard : ¬ branch.isReadable = true := mt one.isReadable_iff.mp unreadable
    refine ⟨left, becomes, ?_, ?_⟩
    · rw [List.filter_cons_of_neg noDefault, defaults]
    · rw [List.filter_cons_of_neg noGuard, readable]

theorem exists_branches (each : ∀ entry ∈ entries, ∃ branch, Becomes entry branch) :
    ∃ branches, List.Forall₂ Becomes entries branches := by
  induction entries with
  | nil => exact ⟨[], .nil⟩
  | cons entry rest ih =>
    obtain ⟨⟨branch, one⟩, others⟩ := List.forall_mem_cons.mp each
    obtain ⟨branches, becomes⟩ := ih others
    exact ⟨branch :: branches, .cons one becomes⟩

theorem exists_becomes_of_mem (becomes : List.Forall₂ Becomes entries branches)
    (member : entry ∈ entries) : ∃ branch, Becomes entry branch := by
  obtain ⟨before, behind, rfl⟩ := List.append_of_mem member
  obtain ⟨_, branch, _, -, -, one⟩ := becomes_split becomes
  exact ⟨branch, one⟩

theorem Moved.mem (moved : Moved entries others) (member : entry ∈ others) : entry ∈ entries := by
  obtain ⟨defaults, guarded⟩ := moved
  cases set : isDefault entry with
  | true =>
    have inside : entry ∈ others.filter isDefault := List.mem_filter.mpr ⟨member, set⟩
    rw [defaults] at inside
    exact (List.mem_filter.mp inside).1
  | false =>
    have inside : entry ∈ others.filter fun entry => !isDefault entry :=
      List.mem_filter.mpr ⟨member, by simp [set]⟩
    rw [guarded] at inside
    exact (List.mem_filter.mp inside).1

theorem filter_isReadable (branches : List Branch) :
    branches.filter Branch.isReadable =
      (branches.filter fun branch => !branch.isDefault).filter Branch.isReadable := by
  rw [List.filter_filter]
  refine List.filter_congr fun branch _ => ?_
  cases readable : branch.isReadable with
  | false => rfl
  | true => simp [Branch.isDefault_of_isReadable readable]

/-- Branches of a kind are the same if the entries of the kind are. -/
theorem filter_branches {left : List Branch} (test : Bool → Bool)
    (becomes : List.Forall₂ Becomes entries branches) (moved : List.Forall₂ Becomes others left)
    (same : (others.filter fun entry => test (isDefault entry)) =
      entries.filter fun entry => test (isDefault entry)) :
    (left.filter fun branch => test branch.isDefault) =
      branches.filter fun branch => test branch.isDefault := by
  have alike {entries : List Value} {branches : List Branch}
      (becomes : List.Forall₂ Becomes entries branches) :
      List.Forall₂ Becomes (entries.filter fun entry => test (isDefault entry))
        (branches.filter fun branch => test branch.isDefault) := by
    refine List.rel_filter (fun entry branch one => ?_) becomes
    show test (isDefault entry) = true ↔ test branch.isDefault = true
    rw [one.isDefault_eq]
  have first := alike moved
  rw [same] at first
  exact becomes_unique first (alike becomes)

theorem Moved.becomes (moved : Moved entries others)
    (becomes : List.Forall₂ Becomes entries branches) :
    ∃ left, List.Forall₂ Becomes others left ∧ SameOrders left branches := by
  obtain ⟨left, becomesLeft⟩ := exists_branches fun entry member =>
    exists_becomes_of_mem becomes (moved.mem member)
  refine ⟨left, becomesLeft, filter_branches id becomes becomesLeft moved.1, ?_⟩
  rw [filter_isReadable left, filter_isReadable branches,
    filter_branches not becomes becomesLeft moved.2]

end Entry

end TextGrammar
