import Mathlib
import TextGrammar.Proofs.Cycle.Depth
import TextGrammar.Proofs.Expansion.Step
import TextGrammar.Proofs.Rule.References
import TextGrammar.Random.Script

/-!
What a review promises about expansion. Without cycles of references the number of rules bounds how
deeply rules are nested; if also no reference is missing, no percent sign is left over.
-/

namespace TextGrammar

variable {ρ ω : Type}

/-! ### Rules at another place -/

namespace Rule

variable {rule : Rule ω}

theorem isData_reset : rule.reset.IsData ↔ rule.IsData := by cases rule <;> rfl

theorem templateClosed_reset : rule.reset.TemplateClosed ↔ rule.TemplateClosed := by
  cases rule <;> rfl

end Rule

namespace Review

variable {rules : Table (Rule ω)} {table : Table (List String)}
  (listed : references rules = .ok table)

include listed

/-- Each reference of a rule uses up one name of the bound. -/
theorem within_of_shows {name target : String} {rule : Rule ω} {bound : Nat}
    (within : Cycle.Within table (bound + 1) name) (has : rules.HasRule name rule) {text : String}
    (shown : rule.Shows text) (member : target ∈ Segment.names text.toList) :
    Cycle.Within table bound target := by
  obtain ⟨kept, found, same⟩ := has.exists_shows
  obtain ⟨names, present, referred⟩ := exists_references_of_get? listed found
  apply within
  rw [present, Option.getD_some, mem_referencesOf referred]
  exact ⟨text, (same text).mp shown, member⟩

/-- If nothing is missing, every reference is to a rule. -/
theorem mem_names_of_missing_eq_nil {entry : String × Rule ω} {text target : String}
    (missing : missingNames table = []) (member : entry ∈ rules.entries)
    (shown : entry.2.Shows text) (refers : target ∈ Segment.names text.toList) :
    target ∈ rules.names := by
  by_contra absent
  obtain ⟨named, present, referred⟩ := exists_references_of_mem listed member
  have missed : target ∈ missingNames table := by
    rw [mem_missingNames, names_references listed]
    refine ⟨⟨named, present, ?_⟩, absent⟩
    exact (mem_referencesOf referred).mpr ⟨text, shown, refers⟩
  rw [missing] at missed
  cases missed

end Review

namespace Expansion

open Effect Run Segment

variable {start : Engine ρ ω} {recording : Bool}

/-! ### Modifiers -/

/-- The modifiers that documents may name never fail. -/
theorem shallow_of_named {entry : String × Modifier} (member : entry ∈ Modifier.named)
    {text : String} {failure : Failure} (failed : entry.2 text = .error failure) :
    failure.Shallow := by
  simp only [Modifier.named, List.mem_cons, List.not_mem_nil, or_false] at member
  rcases member with rfl | rfl | rfl <;> cases failed

theorem keeps_modified_shallow (shallow : start.Shallow) (text : String) :
    Keeps (StemsFrom start (ρ := ρ)) (fun _ => True) Failure.Shallow (modified text) := by
  intro run stems
  rw [modified_apply]
  refine ⟨stems, ?_⟩
  cases outcome : run.engine.modifiers.entries.foldlM (fun text entry => entry.2 text) text with
  | ok changed => trivial
  | error failure =>
    rw [stems.modifiers] at outcome
    exact shallow.shallow_of_foldlM outcome

/-- The rules call no handlers, and templates and their values are closed. -/
structure Reviewable (rules : Table (Rule ω)) : Prop where
  isData : ∀ entry ∈ rules.entries, entry.2.IsData
  closed : ∀ entry ∈ rules.entries, entry.2.TemplateClosed

namespace Reviewable

variable {rules : Table (Rule ω)} {name : String} {rule : Rule ω}

theorem isData_of_hasRule (reviewable : Reviewable rules) (has : rules.HasRule name rule) :
    rule.IsData := by
  obtain ⟨kept, found, same⟩ := has.exists_entry
  rw [← Rule.isData_reset, ← same, Rule.isData_reset]
  exact reviewable.isData _ (Table.mem_of_get? found)

theorem closed_of_hasRule (reviewable : Reviewable rules) (has : rules.HasRule name rule) :
    rule.TemplateClosed := by
  obtain ⟨kept, found, same⟩ := has.exists_entry
  rw [← Rule.templateClosed_reset, ← same, Rule.templateClosed_reset]
  exact reviewable.closed _ (Table.mem_of_get? found)

end Reviewable

/-! ### Depth -/

variable [Draws ρ] {table : Table (List String)}
  (listed : Review.references start.rules = .ok table)

include listed

/-- If references from the slots of a text lead no further than the levels, the limit is not
reached. -/
theorem keeps_expand_shallow (reviewable : Reviewable start.rules)
    (shallow : start.Shallow) {depth : Nat} {text : List Char}
    (within : ∀ name ∈ names text, Cycle.Within table depth name) :
    Keeps (StemsFrom start) (fun _ => True) Failure.Shallow (expand recording depth text) := by
  refine keeps_expand_of
    (fun depth text => ∀ name ∈ names text, Cycle.Within table depth name)
    (fun _ _ _ => True) (fun _ _ _ => True)
    (fun _ _ _ _ _ => trivial) (fun _ _ _ _ _ _ => trivial) ?_ ?_ within
  · intro text name within member found
    have absent := within name (mem_names_iff.mpr member)
    rw [Cycle.Within, Review.names_references listed, ← Table.get?_eq_none_iff] at absent
    exact absurd absent found
  · intro depth text name rule within member has context
    have isData := reviewable.isData_of_hasRule has
    refine (Rule.keeps_pick_gives isData Failure.shallow_fault fun _ _ raises =>
      shallow.of_raises has raises).mono (fun value gives => ⟨?_, fun _ _ => trivial⟩)
        fun _ shallow => shallow
    intro target inside
    obtain ⟨shown, among, refers⟩ :=
      Rule.exists_text_of_gives isData (reviewable.closed_of_hasRule has) gives inside
    exact Review.within_of_shows listed (within name (mem_names_iff.mpr member)) has among refers

/-! ### Percent signs -/

/-- If every reference is to a rule and all texts are closed, the whole text is replaced. -/
theorem keeps_expand_percent (reviewable : Reviewable start.rules)
    (texts : ∀ entry ∈ start.rules.entries, ∀ text, entry.2.Shows text → Closed text.toList)
    (missing : Review.missingNames table = []) {depth : Nat} {text : List Char}
    (closed : Closed text) (known : ∀ name ∈ names text, name ∈ start.rules.names) :
    Keeps (StemsFrom start) (fun out => '%' ∉ out) (fun _ => True)
      (expand recording depth text) := by
  refine keeps_expand_of
    (fun _ text => Closed text ∧ ∀ name ∈ names text, name ∈ start.rules.names)
    (fun _ _ out => '%' ∉ out) (fun _ _ out => '%' ∉ out)
    ?_ ?_ (fun _ _ _ _ _ => trivial) ?_ ⟨closed, known⟩
  · rintro - text out ⟨closed, -⟩ fills
    exact percent_notMem_of_fills closed (fun _ _ absent => absent) fills
  · rintro - text name ⟨-, known⟩ member absent
    exact absurd (known name (mem_names_iff.mpr member)) (Table.get?_eq_none_iff.mp absent)
  · intro depth text name rule _ _ has context
    have isData := reviewable.isData_of_hasRule has
    have templateClosed := reviewable.closed_of_hasRule has
    obtain ⟨kept, found, same⟩ := has.exists_shows
    have entry := Table.mem_of_get? found
    refine (Rule.keeps_pick_gives isData (fun _ => trivial) fun _ _ _ => trivial).mono
      (fun value gives => ⟨⟨?_, ?_⟩, ?_⟩) fun _ _ => trivial
    · refine Rule.closed_of_gives isData templateClosed (fun text shown => ?_) gives
      exact texts _ entry text ((same text).mp shown)
    · intro target inside
      obtain ⟨text, shown, refers⟩ := Rule.exists_text_of_gives isData templateClosed gives inside
      exact Review.mem_names_of_missing_eq_nil listed missing entry ((same text).mp shown) refers
    · exact fun out absent => absent

omit listed

/-! ### The promise -/

/-- A review without cycles of an engine whose rules call no handlers and whose limit is at least
the number of its rules: the limit is never reached, unless a modifier or a guard says so, and no
compiled condition does. If also nothing is missing and all is closed, then no percent sign is left
in a text that is not modified. -/
theorem review_sound (run : Run ρ ω) {review : Review}
    (reviewed : run.engine.review = .ok review) (acyclic : review.cycles = [])
    (isData : ∀ entry ∈ run.engine.rules.entries, entry.2.IsData)
    (closed : ∀ entry ∈ run.engine.rules.entries, entry.2.TemplateClosed)
    (enough : run.engine.rules.entries.length ≤ run.engine.maxDepth) (text : String)
    (preserve : Bool) :
    (run.engine.Shallow →
      ∀ limit name, (generate text preserve run).1 ≠ .error (.tooDeep limit name)) ∧
    (review.missing = [] → run.engine.modifiers = .empty →
      (∀ entry ∈ run.engine.rules.entries, ∀ texts, entry.2.texts = .ok texts →
        ∀ text ∈ texts, Closed text.toList) →
      Closed text.toList → (∀ name ∈ names text.toList, run.engine.rules.contains name) →
      ∀ out, (generate text preserve run).1 = .ok out → '%' ∉ out.toList) := by
  have reviewable : Reviewable run.engine.rules := ⟨isData, closed⟩
  obtain ⟨table, listed, reviewed⟩ := bind_eq_ok.mp reviewed
  obtain ⟨warnings, -, same⟩ := bind_eq_ok.mp reviewed
  cases same
  constructor
  · intro mild limit name same
    have shallow : Meets (fun _ => True) Failure.Shallow (generate text preserve run).1 := by
      refine meets_generate (keeps_expand_shallow listed reviewable mild fun name _ => ?_)
        fun _ _ => keeps_modified_shallow mild _
      -- chains of references are as long as there are rules, and the limit is not below that
      refine (Cycle.within_of_find_eq_nil acyclic name).mono ?_
      rw [Review.names_references listed]
      simp only [Table.names, List.length_map]
      omega
    rw [same] at shallow
    exact shallow limit name rfl
  · intro missing unmodified texts textClosed known out given
    have shown : ∀ entry ∈ run.engine.rules.entries, ∀ text, entry.2.Shows text →
        Closed text.toList := by
      intro entry member text shown
      obtain ⟨all, had⟩ := Review.exists_texts_of_mem listed member
      exact texts entry member all had text ((Rule.mem_texts_iff had).mpr shown)
    refine gives_of_generate (keeps_expand_percent listed reviewable shown missing textClosed
      fun name member => ?_) unmodified given
    exact Table.contains_iff_mem_names.mp (known name member)

/-- A grammar of two levels, with a template over a sequential rule. -/
def meeting (modifiers : Table Modifier) : Run Script Unit :=
  ⟨{ rules := ⟨[("line", .template "%who% meets a %animal%" ⟨[("who", [.str "%animal%"])]⟩),
      ("animal", .sequential [.str "cat", .str "dog"] true 0)]⟩,
     modifiers, context := .empty, maxDepth := 2, seed := none, generator := ⟨[], []⟩ }, (), []⟩

theorem meeting_is_expanded :
    (∀ limit name, (generate "%line%" true (meeting ⟨Modifier.named⟩)).1 ≠
      .error (.tooDeep limit name)) ∧
    ∀ out, (generate "%line%" true (meeting .empty)).1 = .ok out → '%' ∉ out.toList := by
  have reviewed (modifiers : Table Modifier) :
      (meeting modifiers).engine.review = .ok ⟨[], [], []⟩ := by cbv
  have isData : ∀ entry ∈ (meeting .empty).engine.rules.entries, entry.2.IsData := by
    simp [meeting, Rule.IsData]
  have closed : ∀ entry ∈ (meeting .empty).engine.rules.entries, entry.2.TemplateClosed := by
    have animal : Closed "%animal%".toList := isClosed_iff.mp (by cbv)
    have pattern : Closed "%who% meets a %animal%".toList := isClosed_iff.mp (by cbv)
    simpa [meeting, Rule.TemplateClosed, Value.text, Scalar.text] using ⟨pattern, animal⟩
  have shallow : (meeting ⟨Modifier.named⟩).engine.Shallow := by
    constructor
    · simp [meeting, Rule.Raises]
    · exact fun entry member text failure => shallow_of_named member
  have texts : ∀ entry ∈ (meeting .empty).engine.rules.entries, ∀ texts,
      entry.2.texts = .ok texts → ∀ text ∈ texts, Closed text.toList := by
    have all : (meeting .empty).engine.rules.entries.all (fun entry =>
        (entry.2.texts.toOption.getD []).all fun text => isClosed text.toList) = true := by cbv
    intro entry member texts given text listed
    have these := List.all_eq_true.mp all entry member
    rw [given] at these
    exact isClosed_iff.mp (List.all_eq_true.mp these text listed)
  constructor
  · obtain ⟨unlimited, -⟩ := review_sound (meeting ⟨Modifier.named⟩) (reviewed _) rfl isData closed
      (by decide) "%line%" true
    exact unlimited shallow
  · obtain ⟨-, whole⟩ := review_sound (meeting .empty) (reviewed _) rfl isData closed (by decide)
      "%line%" true
    refine whole rfl rfl texts (isClosed_iff.mp (by cbv)) ?_
    have line : names "%line%".toList = ["line"] := by cbv
    rw [line]
    decide

end Expansion

end TextGrammar
