/-!
Tables that remember the order in which names first arrived. Main statements: a name that is
present keeps its place when its value is replaced, a new one goes to the end.
-/

namespace TextGrammar

/-- Values by name, in the order in which the names first arrived. -/
structure Table (α : Type) where
  entries : List (String × α)
deriving Repr

namespace Table

variable {α : Type}

def empty : Table α := ⟨[]⟩

instance : Inhabited (Table α) := ⟨empty⟩

def names (table : Table α) : List String := table.entries.map Prod.fst

def get? (table : Table α) (name : String) : Option α :=
  (table.entries.find? fun entry => entry.1 = name).map Prod.snd

def contains (table : Table α) (name : String) : Bool := (table.get? name).isSome

/-- Replaces the value of a name in its place, or adds a new name at the end. -/
def putEntry (name : String) (value : α) : List (String × α) → List (String × α)
  | [] => [(name, value)]
  | entry :: rest =>
    if entry.1 = name then (name, value) :: rest else entry :: putEntry name value rest

def put (table : Table α) (name : String) (value : α) : Table α :=
  ⟨putEntry name value table.entries⟩

def erase (table : Table α) (name : String) : Table α :=
  ⟨table.entries.filter fun entry => entry.1 ≠ name⟩

/-- The table of a list of pairs, of which later ones replace earlier ones. -/
def ofList (pairs : List (String × α)) : Table α :=
  pairs.foldl (fun table pair => table.put pair.1 pair.2) empty

theorem get?_put_self (table : Table α) (name : String) (value : α) :
    (table.put name value).get? name = some value := by
  obtain ⟨entries⟩ := table
  simp only [put, get?]
  induction entries with
  | nil => simp [putEntry]
  | cons entry rest ih =>
    by_cases same : entry.1 = name
    · simp [putEntry, same]
    · simpa [putEntry, same] using ih

theorem get?_put_of_ne (table : Table α) {name other : String} (value : α)
    (different : other ≠ name) : (table.put name value).get? other = table.get? other := by
  obtain ⟨entries⟩ := table
  simp only [put, get?]
  induction entries with
  | nil => simp [putEntry, Ne.symm different]
  | cons entry rest ih =>
    by_cases same : entry.1 = name
    · simp [putEntry, same, Ne.symm different]
    · by_cases found : entry.1 = other
      · simp [putEntry, found, different]
      · simpa [putEntry, same, found] using ih

theorem get?_erase_self (table : Table α) (name : String) :
    (table.erase name).get? name = none := by
  simp [erase, get?, List.find?_filter]

theorem get?_erase_of_ne (table : Table α) {name other : String} (different : other ≠ name) :
    (table.erase name).get? other = table.get? other := by
  obtain ⟨entries⟩ := table
  simp only [erase, get?]
  induction entries with
  | nil => rfl
  | cons entry rest ih =>
    by_cases gone : entry.1 = name
    · have skipped : entry.1 ≠ other := by
        rintro rfl
        exact different gone
      simpa [gone, Ne.symm different] using ih
    · by_cases found : entry.1 = other
      · simp [found, different]
      · simpa [gone, found] using ih

theorem names_putEntry (name : String) (value : α) (entries : List (String × α)) :
    (putEntry name value entries).map Prod.fst =
      if name ∈ entries.map Prod.fst then entries.map Prod.fst
      else entries.map Prod.fst ++ [name] := by
  induction entries with
  | nil => simp [putEntry]
  | cons entry rest ih =>
    by_cases same : entry.1 = name
    · simp [putEntry, same]
    · simp only [putEntry, if_neg same, List.map_cons, ih, List.mem_cons, Ne.symm same, false_or]
      split <;> rfl

theorem names_put (table : Table α) (name : String) (value : α) :
    (table.put name value).names =
      if name ∈ table.names then table.names else table.names ++ [name] :=
  names_putEntry name value table.entries

theorem mem_of_get? {table : Table α} {name : String} {value : α}
    (found : table.get? name = some value) : (name, value) ∈ table.entries := by
  obtain ⟨entry, first, rfl⟩ := Option.map_eq_some_iff.mp found
  have same : entry.1 = name := by simpa using List.find?_some first
  rw [← same]
  exact List.mem_of_find?_eq_some first

theorem contains_iff_mem_names {table : Table α} {name : String} :
    table.contains name = true ↔ name ∈ table.names := by
  simp [contains, get?, names]

theorem get?_eq_none_iff {table : Table α} {name : String} :
    table.get? name = none ↔ name ∉ table.names := by
  rw [← contains_iff_mem_names, contains]
  simp

theorem put_eq_self {table : Table α} {name : String} {value : α}
    (found : table.get? name = some value) : table.put name value = table := by
  obtain ⟨entries⟩ := table
  simp only [get?, put, mk.injEq] at found ⊢
  induction entries with
  | nil => cases found
  | cons entry rest ih =>
    by_cases same : entry.1 = name
    · have kept : entry = (name, value) := Prod.ext same (by simpa [same] using found)
      simp [putEntry, kept]
    · simp [putEntry, same, ih (by simpa [same] using found)]

/-! ### Tables of lists -/

theorem put_of_notMem {table : Table α} {name : String} (fresh : name ∉ table.names) (value : α) :
    table.put name value = ⟨table.entries ++ [(name, value)]⟩ := by
  obtain ⟨entries⟩ := table
  simp only [put, mk.injEq]
  induction entries with
  | nil => rfl
  | cons entry rest ih =>
    obtain ⟨different, fresh⟩ := not_or.mp (mt List.mem_cons.mpr fresh)
    simp [putEntry, Ne.symm different, ih fresh]

/-- Pairs with different names are the entries of their table. -/
theorem foldl_put_of_nodup {pairs : List (String × α)} {table : Table α}
    (distinct : (table.names ++ pairs.map Prod.fst).Nodup) :
    pairs.foldl (fun table pair => table.put pair.1 pair.2) table = ⟨table.entries ++ pairs⟩ := by
  induction pairs generalizing table with
  | nil => simp
  | cons pair rest ih =>
    have fresh : pair.1 ∉ table.names := by
      have apart := (List.nodup_append.mp distinct).2.2
      exact fun member => apart _ member _ List.mem_cons_self rfl
    rw [List.foldl_cons, put_of_notMem fresh, ih]
    · simp
    · simpa [names] using distinct

theorem ofList_of_nodup {pairs : List (String × α)} (distinct : (pairs.map Prod.fst).Nodup) :
    ofList pairs = ⟨pairs⟩ :=
  have fromEmpty : ((empty : Table α).names ++ pairs.map Prod.fst).Nodup := distinct
  foldl_put_of_nodup fromEmpty

/-! ### Putting several values -/

/-- The table with the values of pairs put one after the other. -/
def putAll (table : Table α) (pairs : List (String × α)) : Table α :=
  pairs.foldl (fun table pair => table.put pair.1 pair.2) table

/-- An entry keeps its place and its value if another name is put. -/
theorem getElem?_put_of_ne {table : Table α} {place : Nat} {key name : String} {value : α}
    (found : table.entries[place]? = some (key, value)) (different : key ≠ name) (other : α) :
    (table.put name other).entries[place]? = some (key, value) := by
  obtain ⟨entries⟩ := table
  simp only [put] at found ⊢
  induction entries generalizing place with
  | nil => cases found
  | cons entry rest ih =>
    by_cases same : entry.1 = name
    · rw [putEntry, if_pos same]
      cases place with
      | zero =>
        cases found
        exact absurd same different
      | succ place => exact found
    · rw [putEntry, if_neg same]
      cases place with
      | zero => exact found
      | succ place => exact ih found

/-- An entry keeps its place and its value if other names are put. -/
theorem getElem?_putAll_of_notMem {table : Table α} {place : Nat} {key : String} {value : α}
    {pairs : List (String × α)} (found : table.entries[place]? = some (key, value))
    (apart : key ∉ pairs.map Prod.fst) :
    (table.putAll pairs).entries[place]? = some (key, value) := by
  induction pairs generalizing table with
  | nil => exact found
  | cons pair rest ih =>
    obtain ⟨different, apart⟩ := not_or.mp (mt List.mem_cons.mpr apart)
    exact ih (getElem?_put_of_ne found different pair.2) apart

/-- A value that is replaced at once leaves no trace. -/
theorem put_put (table : Table α) (name : String) (value other : α) :
    (table.put name value).put name other = table.put name other := by
  obtain ⟨entries⟩ := table
  simp only [put, mk.injEq]
  induction entries with
  | nil => simp [putEntry]
  | cons entry rest ih =>
    by_cases same : entry.1 = name
    · simp [putEntry, same]
    · simp [putEntry, same, ih]

/-- The value of a name that is present may as well be put after that of another one. -/
theorem put_comm {table : Table α} {name other : String} (present : name ∈ table.names)
    (different : name ≠ other) (value content : α) :
    (table.put name value).put other content = (table.put other content).put name value := by
  obtain ⟨entries⟩ := table
  simp only [put, mk.injEq]
  induction entries with
  | nil => cases present
  | cons entry rest ih =>
    by_cases same : entry.1 = name
    · have apart : entry.1 ≠ other := same ▸ different
      simp [putEntry, same, different]
    · have behind : name ∈ (Table.mk rest).names :=
        (List.mem_cons.mp present).resolve_left (Ne.symm same)
      by_cases found : entry.1 = other
      · simp [putEntry, found, Ne.symm different]
      · simp [putEntry, same, found, ih behind]

theorem names_subset_put (table : Table α) (name : String) (value : α) :
    table.names ⊆ (table.put name value).names := by
  intro other member
  rw [names_put]
  split
  · exact member
  · exact List.mem_append_left [name] member

theorem mem_names_put (table : Table α) (name : String) (value : α) :
    name ∈ (table.put name value).names := by
  rw [← contains_iff_mem_names, contains, get?_put_self]
  rfl

theorem mem_names_putAll {table : Table α} {name : String} (present : name ∈ table.names)
    (pairs : List (String × α)) : name ∈ (table.putAll pairs).names := by
  induction pairs generalizing table with
  | nil => exact present
  | cons pair rest ih => exact ih (names_subset_put table pair.1 pair.2 present)

theorem get?_putAll_of_notMem {table : Table α} {name : String} {pairs : List (String × α)}
    (apart : name ∉ pairs.map Prod.fst) : (table.putAll pairs).get? name = table.get? name := by
  induction pairs generalizing table with
  | nil => rfl
  | cons pair rest ih =>
    obtain ⟨different, apart⟩ := not_or.mp (mt List.mem_cons.mpr apart)
    exact (ih apart).trans (get?_put_of_ne table pair.2 different)

/-- The value of a name that is present may as well be put after other values; if one of these is
for the same name, it does not matter at all. -/
theorem putAll_put {table : Table α} {name : String} (present : name ∈ table.names) (value : α)
    (pairs : List (String × α)) :
    (table.put name value).putAll pairs =
      if name ∈ pairs.map Prod.fst then table.putAll pairs
      else (table.putAll pairs).put name value := by
  induction pairs generalizing table with
  | nil => rfl
  | cons pair rest ih =>
    obtain ⟨other, content⟩ := pair
    show ((table.put name value).put other content).putAll rest = _
    by_cases same : name = other
    · subst same
      rw [put_put, List.map_cons, if_pos List.mem_cons_self]
      rfl
    · rw [put_comm present same, ih (names_subset_put table other content present)]
      simp only [List.map_cons, List.mem_cons, same, false_or]
      rfl

/-- Putting the same values once more changes nothing. -/
theorem putAll_putAll (table : Table α) (pairs : List (String × α)) :
    (table.putAll pairs).putAll pairs = table.putAll pairs := by
  induction pairs generalizing table with
  | nil => rfl
  | cons pair rest ih =>
    obtain ⟨name, value⟩ := pair
    have again : ((table.put name value).putAll rest).putAll rest =
        (table.put name value).putAll rest := ih (table.put name value)
    have present : name ∈ ((table.put name value).putAll rest).names :=
      mem_names_putAll (mem_names_put table name value) rest
    show (((table.put name value).putAll rest).put name value).putAll rest =
      (table.put name value).putAll rest
    rw [putAll_put present, again]
    split
    · rfl
    · -- nothing behind puts another value under the name, so it still stands there
      rename_i apart
      have stands : ((table.put name value).putAll rest).get? name = some value :=
        (get?_putAll_of_notMem apart).trans (get?_put_self table name value)
      exact put_eq_self stands

/-! ### The last value of a name -/

/-- The table with every value changed by a function. -/
def mapValues {β : Type} (change : α → β) (table : Table α) : Table β :=
  ⟨table.entries.map fun entry => (entry.1, change entry.2)⟩

variable {β : Type} (change : α → β)

theorem get?_mapValues (table : Table α) (name : String) :
    (table.mapValues change).get? name = (table.get? name).map change := by
  simp only [mapValues, get?, List.find?_map, Option.map_map]
  rfl

theorem mapValues_put (table : Table α) (name : String) (value : α) :
    (table.put name value).mapValues change =
      (table.mapValues change).put name (change value) := by
  obtain ⟨entries⟩ := table
  simp only [put, mapValues, mk.injEq]
  induction entries with
  | nil => rfl
  | cons entry rest ih =>
    by_cases same : entry.1 = name
    · simp [putEntry, same]
    · simp [putEntry, same, ih]

end Table

end TextGrammar
