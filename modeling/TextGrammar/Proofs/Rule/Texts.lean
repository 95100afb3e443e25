import TextGrammar.Proofs.Number.Short
import TextGrammar.Proofs.Rule.Choice
import TextGrammar.Proofs.Traversal

/-!
What rules give, compared with the texts that they are known to have beforehand. A rule that calls
no handler gives one of its texts, a number, or its template with the slots of variables filled.
-/

namespace TextGrammar

variable {ρ ω : Type}

/-! ### Numbers -/

theorem percent_notMem_toDigits (n : Nat) : '%' ∉ Nat.toDigits 10 n := by
  intro member
  have digit := Nat.isDigit_of_mem_toDigits (by decide) (by decide) member
  exact absurd digit (by decide)

theorem percent_notMem_int (value : Int) : '%' ∉ (toString value).toList := by
  cases value with
  | ofNat n =>
    show '%' ∉ n.repr.toList
    rw [Nat.toList_repr]
    exact percent_notMem_toDigits n
  | negSucc n =>
    show '%' ∉ ("-" ++ (n + 1).repr).toList
    rw [String.toList_append, Nat.toList_repr]
    simpa using percent_notMem_toDigits (n + 1)

theorem percent_notMem_withPoint (places units : Nat) :
    '%' ∉ (Binary64.withPoint places units).toList := by
  have digits : '%' ∉ List.replicate (places + 1 - (Nat.toDigits 10 units).length) '0' ++
      Nat.toDigits 10 units := by
    simp [percent_notMem_toDigits]
  simp only [Binary64.withPoint, String.toList_ofList]
  split
  · exact digits
  · intro member
    rcases List.mem_append.mp member with front | back
    · exact digits (List.mem_of_mem_take front)
    · rcases List.mem_cons.mp back with point | back
      · exact absurd point (by decide)
      · exact digits (List.mem_of_mem_drop back)

theorem percent_notMem_fixed (places : Nat) (number : Binary64) :
    '%' ∉ (number.fixed places).toList := by
  cases number with
  | nan => simp [Binary64.fixed]
  | infinity negative => cases negative <;> simp [Binary64.fixed]
  | finite negative significand exponent =>
    rw [Binary64.fixed, String.toList_append]
    intro member
    rcases List.mem_append.mp member with sign | digits
    · cases negative <;> simp at sign
    · exact percent_notMem_withPoint _ _ digits

theorem percent_notMem_realText {range : Range} {width : Number} {fraction : Binary64}
    {text : String} (printed : range.realText width fraction = .ok text) : '%' ∉ text.toList := by
  have fixedText (places : Nat) (number : Number)
      (printed : Range.fixedText places number = .ok text) : '%' ∉ text.toList := by
    obtain ⟨rounded, -, same⟩ := Effect.bind_eq_ok.mp printed
    cases same
    exact percent_notMem_fixed places rounded
  obtain ⟨value, -, printed⟩ := Effect.bind_eq_ok.mp printed
  obtain ⟨step, -, printed⟩ := Effect.bind_eq_ok.mp printed
  cases step with
  | none => exact fixedText 2 value printed
  | some step =>
    obtain ⟨snapped, -, printed⟩ := Effect.bind_eq_ok.mp printed
    obtain ⟨places, -, printed⟩ := Effect.bind_eq_ok.mp printed
    exact fixedText places snapped printed

theorem percent_notMem_numeral {value : Int} {text : String}
    (printed : Numeral.text value = .ok text) : '%' ∉ text.toList := by
  rw [(Numeral.text_eq_ok_iff.mp printed).2]
  exact percent_notMem_int value

/-! ### Choices -/

theorem Weighted.mem_of_landing {α β : Type} [OfNat α 0] [Add α] [LT α] [DecidableLT α]
    {point start : α} {pairs : List (β × α)} {value : β}
    (landed : landing point start pairs = some value) : value ∈ pairs.map Prod.fst := by
  induction pairs generalizing start with
  | nil => cases landed
  | cons pair rest ih =>
    unfold landing at landed
    split at landed
    · cases landed
      exact List.mem_cons_self
    · exact List.mem_cons_of_mem _ (ih landed)

theorem Weighted.mem_of_choose {α β : Type} [OfNat α 0] [Add α] [Mul α] [LT α] [DecidableLT α]
    {pairs : List (β × α)} {draw : α} {value : β} (chosen : choose pairs draw = some value) :
    value ∈ pairs.map Prod.fst := by
  rcases Option.or_eq_some_iff.mp chosen with landed | ⟨_, last⟩
  · exact mem_of_landing landed
  · obtain ⟨pair, found, rfl⟩ := Option.map_eq_some_iff.mp last
    exact List.mem_map_of_mem (List.mem_of_getLast? found)

namespace Rule

variable {rule : Rule ω} {context : Table String} {branches : List Branch}

/-- The text is that of one of the values that the rule is known to have. -/
def Shows (rule : Rule ω) (text : String) : Prop :=
  ∃ value ∈ rule.candidates, value.text = .ok text

theorem mem_texts_iff {texts : List String} (listed : rule.texts = .ok texts) {text : String} :
    text ∈ texts ↔ rule.Shows text := by
  constructor
  · exact Effect.exists_of_mapM_eq_ok listed
  · rintro ⟨value, known, shown⟩
    obtain ⟨other, member, same⟩ := Effect.exists_output_of_mem listed known
    rw [shown] at same
    exact Except.ok.inj same ▸ member

/-! ### The chosen branch -/

theorem exists_guard_of_chosen_eq_error {failure : Failure}
    (failed : chosen context branches = .error failure) :
    ∃ branch ∈ branches, branch.answer context = .error failure := by
  rcases Effect.bind_eq_error.mp failed with searching | ⟨found, -, given⟩
  · obtain ⟨front, branch, back, rfl, -, failed⟩ := Effect.findM?_eq_error_iff.mp searching
    exact ⟨branch, List.mem_append_cons_self, failed⟩
  · cases found <;> cases given

/-- The chosen values are known beforehand. -/
theorem mem_candidates_of_chosen {values : List Value}
    (given : chosen context branches = .ok values) {value : Value} (member : value ∈ values) :
    value ∈ (conditional branches : Rule ω).candidates := by
  obtain ⟨found, searched, given⟩ := Effect.bind_eq_ok.mp given
  cases found with
  | some branch =>
    cases given
    obtain ⟨front, back, rfl, -, -⟩ := Effect.findM?_eq_some_iff.mp searched
    exact List.mem_flatMap.mpr
      ⟨branch, List.mem_append_cons_self, List.mem_append_left _ member⟩
  | none =>
    cases given
    unfold fallback at member
    split at member
    · rename_i branch first
      exact List.mem_flatMap.mpr
        ⟨branch, List.mem_of_find?_eq_some first, List.mem_append_right _ member⟩
    · cases member

/-! ### What rules give -/

/-- A rule that calls no handler. -/
def IsData : Rule ω → Prop
  | function .. => False
  | _ => True

/-- What a rule that calls no handler may give: its template filled, a text without percent signs
for a range, and otherwise one of its texts or nothing. -/
def Gives : Rule ω → String → Prop
  | template pattern bindings, text =>
    Segment.Filled (Binds bindings) pattern.toList text.toList
  | range _, text => '%' ∉ text.toList
  | rule, text => text = "" ∨ rule.Shows text

/-- In the context and the world the rule is resolved to the failure by its own handler or by one
of its own guards. -/
def Raises (context : Table String) (world : ω) (failure : Failure) : Rule ω → Prop
  | function handler parameters => (handler parameters world).1 = .error failure
  | conditional branches => ∃ branch ∈ branches, branch.answer context = .error failure
  | _ => False

/-- Compiled conditions never fail. -/
theorem not_raises_of_conditions {world : ω} {failure : Failure}
    (compiled : ∀ branch ∈ branches, ∀ guard, branch.guard = some guard →
      ∃ predicate, guard = .condition predicate) :
    ¬ (conditional branches).Raises context world failure := by
  rintro ⟨branch, member, failed⟩
  unfold Branch.answer at failed
  split at failed
  · rename_i guard found
    obtain ⟨predicate, rfl⟩ := compiled branch member guard found
    cases failed
  · cases failed

end Rule

namespace Pick

open Effect

variable {fails : Failure → Prop}

theorem keeps_report (notes : List Note) :
    Keeps (fun _ => True) (fun _ => True) fails (report notes : Pick ρ ω Unit) :=
  fun _ _ => ⟨trivial, trivial⟩

variable [Draws ρ]

theorem keeps_unit :
    Keeps (fun _ => True) (fun _ => True) fails (unit : Pick ρ ω Binary64) :=
  fun _ _ => ⟨trivial, trivial⟩

theorem keeps_below (bound : Nat) (positive : 0 < bound) :
    Keeps (fun _ => True) (fun _ => True) fails (below bound positive : Pick ρ ω (Fin bound)) :=
  fun _ _ => ⟨trivial, trivial⟩

variable (faults : ∀ reason, fails (.fault reason))

include faults

/-- One of the values is chosen, or nothing is given. -/
theorem keeps_uniform_mem (values : List Value) :
    Keeps (fun _ => True) (fun text => text = "" ∨ ∃ value ∈ values, value.text = .ok text) fails
      (uniform values : Pick ρ ω String) := by
  refine (keeps_uniform fun _ _ reason _ => faults reason).imp fun text offered => ?_
  rcases offered with ⟨-, empty⟩ | ⟨value, member, shown⟩
  · exact .inl (String.toList_eq_nil_iff.mp empty)
  · rw [String.ofList_toList] at shown
    exact .inr ⟨value, member, shown⟩

theorem keeps_weighted (values weights : List Value) :
    Keeps (fun _ => True) (fun text => text = "" ∨ ∃ value ∈ values, value.text = .ok text) fails
      (weighted values weights : Pick ρ ω String) := by
  refine keeps_bind (keeps_ofFault fun reason _ => faults reason) fun pairs mapped => ?_
  unfold byWeight
  split
  · exact keeps_uniform_mem faults values
  · refine keeps_bind keeps_unit fun draw _ => ?_
    refine (keeps_ofFault fun reason _ => faults reason).imp fun text shown => ?_
    cases chosen : Weighted.choose pairs draw with
    | none =>
      rw [chosen] at shown
      cases shown
      exact .inl rfl
    | some value =>
      rw [chosen] at shown
      refine .inr ⟨value, ?_, shown⟩
      obtain ⟨pair, member, rfl⟩ := List.mem_map.mp (Weighted.mem_of_choose chosen)
      obtain ⟨⟨value, weight⟩, present, same⟩ := Effect.exists_of_mapM_eq_ok mapped member
      obtain ⟨number, -, paired⟩ := bind_eq_ok.mp same
      cases paired
      exact (List.of_mem_zip present).1

theorem keeps_range (bounds : Range) :
    Keeps (fun _ => True) (fun text => '%' ∉ text.toList) fails
      (range bounds : Pick ρ ω String) := by
  have printed (value : Int) : Keeps (fun _ => True) (fun text => '%' ∉ text.toList) fails
      (ofFault (Numeral.text value) : Pick ρ ω String) :=
    (keeps_ofFault fun reason _ => faults reason).imp fun text => percent_notMem_numeral
  unfold range
  split
  · refine keeps_bind (keeps_ofFault fun reason _ => faults reason) fun width _ => ?_
    refine keeps_bind keeps_unit fun fraction _ => ?_
    refine (keeps_ofFault fun reason _ => faults reason).imp fun text printed => ?_
    exact percent_notMem_realText printed
  · refine keeps_bind (keeps_ofFault fun reason _ => faults reason) ?_
    rintro ⟨low, stride, count⟩ _
    simp only
    split
    · rename_i positive
      exact keeps_bind (keeps_below count.toNat positive) fun place _ => printed _
    · exact printed low

end Pick

namespace Rule

open Effect

variable {rule : Rule ω} {fails : Failure → Prop}

theorem mem_of_valueAt? {values : List Value} {cursor : Int} {value : Value}
    (found : valueAt? values cursor = some value) : value ∈ values := by
  simp only [valueAt?] at found
  generalize (if cursor < 0 then cursor + values.length else cursor) = place at found
  split at found
  · cases found
  · exact List.mem_of_getElem? found

/-- A rule that calls no handler gives only what it is known to give, and fails only with faults or
where its guards do. -/
theorem keeps_pick_gives [Draws ρ] (isData : rule.IsData) (faults : ∀ reason, fails (.fault reason))
    {context : Table String}
    (raised : ∀ world failure, rule.Raises context world failure → fails failure) :
    Keeps (fun _ => True) rule.Gives fails (rule.pick (ρ := ρ) context) := by
  cases rule with
  | static values => exact Pick.keeps_uniform_mem faults values
  | function => exact isData.elim
  | weighted values weights => exact Pick.keeps_weighted faults values weights
  | conditional branches =>
    intro sources _
    have failed (failure : Failure) (failed : chosen context branches = .error failure) :
        fails failure := raised sources.world failure (exists_guard_of_chosen_eq_error failed)
    refine keeps_bind (Pick.keeps_report _) (fun _ _ => ?_) sources trivial
    refine keeps_bind (Pick.keeps_ofOutcome failed) fun values given => ?_
    refine (Pick.keeps_uniform_mem faults values).imp fun text offered => ?_
    refine offered.imp_right fun ⟨value, member, shown⟩ => ?_
    exact ⟨value, mem_candidates_of_chosen given member, shown⟩
  | sequential values cycle cursor =>
    rw [Rule.pick]
    split
    · exact keeps_pure (.inl rfl)
    · split
      · rename_i value found
        refine (Pick.keeps_ofFault fun reason _ => faults reason).imp fun text shown => .inr ?_
        exact ⟨value, mem_of_valueAt? found, shown⟩
      · exact fun _ _ => ⟨trivial, faults _⟩
  | range bounds => exact Pick.keeps_range faults bounds
  | template pattern bindings =>
    refine keeps_bind (Pick.keeps_template (fun _ _ _ _ reason _ => faults reason) _)
      fun filled fills => keeps_pure ?_
    refine Segment.filled_iff_fills.mpr ?_
    simpa using fills

end Rule

/-! ### Failures -/

/-- The failure is not about the depth limit. -/
def Failure.Shallow (failure : Failure) : Prop := ∀ limit rule, failure ≠ .tooDeep limit rule

theorem Failure.shallow_fault (reason : Fault) : (Failure.fault reason).Shallow := by
  intro limit rule same
  cases same

end TextGrammar
