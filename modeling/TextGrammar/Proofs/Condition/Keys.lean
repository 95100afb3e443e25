import TextGrammar.Proofs.Condition.Dependence

/-!
The keys of a condition. Main statement: a condition depends on nothing but the values under its
keys, and these are the keys of its look-ups in the order of their first occurrence from left to
right, each once.
-/

namespace TextGrammar.Condition.Tree

/-! ### Places inside a condition -/

/-- The conditions directly inside a condition, from left to right. -/
def operands : Tree → List Tree
  | literal _ | lookup _ => []
  | compare _ left right => [left, right]
  | all operands | any operands => operands
  | not operand => [operand]

/-- The condition at a path. Each step of a path is the index of an operand. -/
def at? : Tree → List Nat → Option Tree
  | tree, [] => some tree
  | tree, index :: path => tree.operands[index]?.bind fun operand => operand.at? path

theorem sizeOf_lt_of_mem_operands {operand tree : Tree} (inside : operand ∈ tree.operands) :
    sizeOf operand < sizeOf tree := by
  cases tree with
  | literal | lookup => cases inside
  | compare operator left right =>
    rcases List.mem_pair.mp inside with rfl | rfl
    · simp +arith
    · simp +arith
  | all operands | any operands =>
    have smaller : sizeOf operand < sizeOf operands := List.sizeOf_lt_of_mem inside
    simp only [all.sizeOf_spec, any.sizeOf_spec]
    omega
  | not operand =>
    rw [List.mem_singleton.mp inside]
    simp

theorem induction_operands {motive : Tree → Prop}
    (step : ∀ tree, (∀ operand ∈ tree.operands, motive operand) → motive tree) (tree : Tree) :
    motive tree :=
  step tree fun operand _ => induction_operands step operand
termination_by sizeOf tree
decreasing_by exact sizeOf_lt_of_mem_operands ‹_›

/-! ### Places of look-ups -/

/-- A place with its key, seen from the condition that has the operand at an index. -/
def under (index : Nat) (place : List Nat × String) : List Nat × String :=
  (index :: place.1, place.2)

mutual

/-- The places at which a condition looks up keys, from left to right. -/
def places : Tree → List (List Nat × String)
  | literal _ => []
  | lookup key => [([], key)]
  | compare _ left right => left.places.map (under 0) ++ right.places.map (under 1)
  | all operands => placesFrom 0 operands
  | any operands => placesFrom 0 operands
  | not operand => operand.places.map (under 0)

/-- The places in operands whose indices begin with a given one. -/
def placesFrom (start : Nat) : List Tree → List (List Nat × String)
  | [] => []
  | operand :: rest => operand.places.map (under start) ++ placesFrom (start + 1) rest

end

/-- A condition is a look-up, or its look-ups are those of its operands. -/
theorem places_cases (tree : Tree) :
    (∃ key, tree = .lookup key) ∨
      tree.places = placesFrom 0 tree.operands ∧ tree.lookups = lookupsOfAll tree.operands ∧
        ∀ key, tree ≠ .lookup key := by
  cases tree with
  | lookup key => exact .inl ⟨key, rfl⟩
  | literal | compare | all | any | not =>
    right
    simp [places, placesFrom, operands, lookups, lookupsOfAll]

theorem mem_placesFrom {operands : List Tree} {start : Nat} {path : List Nat} {key : String} :
    (path, key) ∈ placesFrom start operands ↔
      ∃ index rest operand, path = (start + index) :: rest ∧ operands[index]? = some operand ∧
        (rest, key) ∈ operand.places := by
  induction operands generalizing start with
  | nil => simp [placesFrom]
  | cons operand more ih =>
    rw [placesFrom, List.mem_append, ih]
    constructor
    · rintro (inside | ⟨index, rest, other, rfl, found, inside⟩)
      · obtain ⟨⟨rest, looked⟩, place, same⟩ := List.mem_map.mp inside
        cases same
        exact ⟨0, rest, operand, rfl, rfl, place⟩
      · exact ⟨index + 1, rest, other, by rw [Nat.add_right_comm, Nat.add_assoc], found, inside⟩
    · rintro ⟨index, rest, other, rfl, found, inside⟩
      cases index with
      | zero =>
        cases found
        exact .inl (List.mem_map.mpr ⟨_, inside, rfl⟩)
      | succ index =>
        exact .inr ⟨index, rest, other, by rw [Nat.add_right_comm, Nat.add_assoc], found, inside⟩

/-- The places are those of the look-ups. -/
theorem mem_places {tree : Tree} {path : List Nat} {key : String} :
    (path, key) ∈ tree.places ↔ tree.at? path = some (.lookup key) := by
  induction path generalizing tree with
  | nil =>
    rcases places_cases tree with ⟨other, rfl⟩ | ⟨same, -, never⟩
    · simp [places, at?, eq_comm]
    · simp [same, mem_placesFrom, at?, never]
  | cons index path ih =>
    rcases places_cases tree with ⟨other, rfl⟩ | ⟨same, -, never⟩
    · simp [places, at?, operands]
    · simp [same, mem_placesFrom, at?, ih, Option.bind_eq_some_iff]

theorem map_snd_placesFrom (start : Nat) {operands : List Tree}
    (each : ∀ operand ∈ operands, operand.places.map Prod.snd = operand.lookups) :
    (placesFrom start operands).map Prod.snd = lookupsOfAll operands := by
  induction operands generalizing start with
  | nil => rfl
  | cons operand rest ih =>
    obtain ⟨first, others⟩ := List.forall_mem_cons.mp each
    simp [placesFrom, lookupsOfAll, ih _ others, ← first, under]

theorem map_snd_places (tree : Tree) : tree.places.map Prod.snd = tree.lookups := by
  induction tree using induction_operands with
  | step tree ih =>
    rcases places_cases tree with ⟨key, rfl⟩ | ⟨same, looked, -⟩
    · rfl
    · rw [same, looked, map_snd_placesFrom 0 ih]

/-- The first place stands before the second one, seen from left to right. -/
def Precedes (here there : List Nat × String) : Prop := here.1 < there.1

theorem pairwise_placesFrom (start : Nat) {operands : List Tree}
    (each : ∀ operand ∈ operands, operand.places.Pairwise Precedes) :
    (placesFrom start operands).Pairwise Precedes := by
  induction operands generalizing start with
  | nil => exact .nil
  | cons operand rest ih =>
    obtain ⟨first, others⟩ := List.forall_mem_cons.mp each
    refine List.pairwise_append.mpr ⟨?_, ih _ others, ?_⟩
    · exact List.pairwise_map.mpr (first.imp fun before => List.cons_lt_cons_self.mpr before)
    · -- the places in one operand have a lesser index than those in the operands behind it
      rintro here inside ⟨path, key⟩ behind
      obtain ⟨place, -, rfl⟩ := List.mem_map.mp inside
      obtain ⟨index, path, -, rfl, -, -⟩ := mem_placesFrom.mp behind
      exact List.cons_lt_cons_iff.mpr (.inl (by omega))

theorem pairwise_places (tree : Tree) : tree.places.Pairwise Precedes := by
  induction tree using induction_operands with
  | step tree ih =>
    rcases places_cases tree with ⟨key, rfl⟩ | ⟨same, -, -⟩
    · exact List.pairwise_singleton _ _
    · rw [same]
      exact pairwise_placesFrom 0 ih

/-! ### Keys in the order of their first use -/

theorem foldl_addKey_append (found : List String) (key : String) :
    (found ++ [key]).foldl addKey [] = addKey (found.foldl addKey []) key := by
  rw [List.foldl_append, List.foldl_cons, List.foldl_nil]

theorem mem_foldl_addKey {found : List String} {key : String} :
    key ∈ found.foldl addKey [] ↔ key ∈ found := by
  induction found using List.reverseRecOn with
  | nil => rfl
  | append_singleton found last ih =>
    rw [foldl_addKey_append, addKey]
    split
    · rename_i known
      rw [List.mem_append, List.mem_singleton, ← ih]
      exact ⟨.inl, fun either => either.elim id fun same => same ▸ known⟩
    · simp [ih]

theorem nodup_foldl_addKey (found : List String) : (found.foldl addKey []).Nodup := by
  induction found using List.reverseRecOn with
  | nil => exact .nil
  | append_singleton found last ih =>
    rw [foldl_addKey_append, addKey]
    split
    · exact ih
    · rename_i new
      simpa using ih.concat new

/-- An earlier key is used before every use of a later one. -/
theorem pairwise_foldl_addKey {places : List (List Nat × String)}
    (sorted : places.Pairwise Precedes) :
    ((places.map Prod.snd).foldl addKey []).Pairwise fun first second =>
      ∃ path, (path, first) ∈ places ∧ ∀ other, (other, second) ∈ places → path < other := by
  induction places using List.reverseRecOn with
  | nil => exact .nil
  | append_singleton places last ih =>
    obtain ⟨sorted, -, before⟩ := List.pairwise_append.mp sorted
    have before {path first other second} (inside : (path, first) ∈ places)
        (added : (other, second) ∈ [last]) : path < other := by
      obtain rfl := List.mem_singleton.mp added
      exact before (path, first) inside (other, second) List.mem_cons_self
    have kept : ((places.map Prod.snd).foldl addKey []).Pairwise fun first second =>
        ∃ path, (path, first) ∈ places ++ [last] ∧
          ∀ other, (other, second) ∈ places ++ [last] → path < other := by
      refine (ih sorted).imp fun {first second} ⟨path, inside, least⟩ => ?_
      refine ⟨path, List.mem_append_left _ inside, fun other found => ?_⟩
      exact (List.mem_append.mp found).elim (least other) (before inside)
    rw [List.map_append, List.map_singleton, foldl_addKey_append, addKey]
    split
    · exact kept
    · rename_i new
      refine List.pairwise_append.mpr ⟨kept, List.pairwise_singleton _ _, ?_⟩
      intro first known second here
      obtain rfl := List.mem_singleton.mp here
      obtain ⟨⟨path, key⟩, inside, same⟩ := List.mem_map.mp (mem_foldl_addKey.mp known)
      cases same
      refine ⟨path, List.mem_append_left _ inside, fun other found => ?_⟩
      rcases List.mem_append.mp found with earlier | same
      · exact absurd (mem_foldl_addKey.mpr (List.mem_map.mpr ⟨_, earlier, rfl⟩)) new
      · exact before inside same

theorem mem_keys_iff {tree : Tree} {key : String} :
    key ∈ tree.keys ↔ ∃ path, tree.at? path = some (.lookup key) := by
  rw [keys, mem_foldl_addKey, ← map_snd_places]
  simp [mem_places]

theorem pairwise_keys (tree : Tree) :
    tree.keys.Pairwise fun first second => ∃ path, tree.at? path = some (.lookup first) ∧
      ∀ other, tree.at? other = some (.lookup second) → path < other := by
  have ordered := pairwise_foldl_addKey (pairwise_places tree)
  simpa only [keys, map_snd_places, mem_places] using ordered

theorem mem_keys_of_mem_lookups {tree : Tree} {key : String} (looked : key ∈ tree.lookups) :
    key ∈ tree.keys :=
  mem_foldl_addKey.mpr looked

/-- If the values under the keys of a condition are equal and of one kind in two contexts, so are
the values of the condition, or it fails in the same way; and with the same values it has the same
value. The keys are those that are looked up anywhere in the condition, each once, and a key comes
before another if it is looked up to the left of every look-up of the other. -/
theorem keys_suffice (tree : Tree) :
    (∀ context context' : Value,
      (∀ key ∈ tree.keys, Matching Value.Alike (context.lookup key) (context'.lookup key)) →
        Matching Value.Alike (tree.evaluate context) (tree.evaluate context')) ∧
    (∀ context context' : Value,
      (∀ key ∈ tree.keys, context.lookup key = context'.lookup key) →
        tree.evaluate context = tree.evaluate context') ∧
    (∀ key, key ∈ tree.keys ↔ ∃ path, tree.at? path = some (.lookup key)) ∧
    tree.keys.Nodup ∧
    tree.keys.Pairwise fun first second => ∃ path, tree.at? path = some (.lookup first) ∧
      ∀ other, tree.at? other = some (.lookup second) → path < other := by
  refine ⟨fun context context' alike => ?_, fun context context' same => ?_,
    fun key => mem_keys_iff, nodup_foldl_addKey _, pairwise_keys tree⟩
  · refine indistinct_alike.evaluate tree fun key looked => ?_
    exact alike key (mem_keys_of_mem_lookups looked)
  · refine matching_eq_iff.mp (indistinct_eq.evaluate tree fun key looked => ?_)
    exact matching_eq_iff.mpr (same key (mem_keys_of_mem_lookups looked))

/-- Zeros of both signs under the one key leave a negation as it is, whatever the other entries. -/
theorem keys_suffice_zero :
    Matching Value.Alike
      ((Tree.not (.lookup "score")).evaluate
        (.map [(.str "score", .real (.finite true 0 0)), (.str "color", .str "red")]))
      ((Tree.not (.lookup "score")).evaluate (.map [(.str "score", .real (.finite false 0 0))])) :=
  (keys_suffice (.not (.lookup "score"))).1 _ _ fun key looked => by
    obtain rfl := List.mem_singleton.mp looked
    have equal (x y : Bool) :
        (Value.real (.finite x 0 0)).equal (.real (.finite y 0 0)) = true := by
      rw [Value.equal]
      cases x <;> cases y <;> decide +kernel
    exact .inr ⟨rfl, equal true false, equal false true⟩

end TextGrammar.Condition.Tree
