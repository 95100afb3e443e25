import TextGrammar.Engine.Review
import TextGrammar.Proofs.Rule.Texts
import TextGrammar.Proofs.Slot.Edges

/-!
The references of a rule cover what it gives. Main statements: every slot of a filled template is a
slot of its texts if no slot lies across an edge of what fills it, or of its text without variables;
this is so if the template and the values of its variables are closed.
-/

namespace TextGrammar

open Segment

variable {ω : Type}

/-- The template of a rule and the values of its variables are closed, if it has any. -/
def Rule.TemplateClosed : Rule ω → Prop
  | template pattern bindings => Closed pattern.toList ∧
    ∀ entry ∈ bindings.entries, ∀ value ∈ entry.2, ∀ text, value.text = .ok text →
      Closed text.toList
  | _ => True

theorem Review.mem_distinct {names : List String} {name : String} :
    name ∈ distinct names ↔ name ∈ names := by
  have fold (seen : List String) :
      name ∈ names.foldl (fun seen name => if seen.contains name then seen else seen ++ [name])
        seen ↔ name ∈ seen ∨ name ∈ names := by
    induction names generalizing seen with
    | nil => simp
    | cons first rest ih =>
      rw [List.foldl_cons, ih]
      by_cases known : seen.contains first
      · rw [if_pos known]
        have member : first ∈ seen := by simpa using known
        constructor
        · rintro (before | behind)
          · exact .inl before
          · exact .inr (List.mem_cons_of_mem _ behind)
        · rintro (before | behind)
          · exact .inl before
          · rcases List.mem_cons.mp behind with rfl | behind
            · exact .inl member
            · exact .inr behind
      · rw [if_neg known]
        simp [or_assoc]
  simpa [distinct] using fold []

theorem Review.mem_referencesOf {rule : Rule ω} {listed : List String}
    (referred : referencesOf rule = .ok listed) {name : String} :
    name ∈ listed ↔ ∃ text, rule.Shows text ∧ name ∈ names text.toList := by
  obtain ⟨texts, known, same⟩ := Effect.bind_eq_ok.mp referred
  cases same
  simp only [mem_distinct, List.mem_flatMap, Rule.mem_texts_iff known]

theorem Review.mem_missingNames {references : Table (List String)} {name : String} :
    name ∈ missingNames references ↔
      (∃ entry ∈ references.entries, name ∈ entry.2) ∧ name ∉ references.names := by
  rw [missingNames, mem_distinct, List.mem_filter, List.mem_flatMap,
    ← Table.contains_iff_mem_names]
  simp

/-- The references of rules stand under the names of the rules. -/
theorem Review.entrywise_references {rules : Table (Rule ω)} {table : Table (List String)}
    (listed : references rules = .ok table) :
    Table.Entrywise (fun rule names => referencesOf rule = .ok names) rules.entries
      table.entries := by
  obtain ⟨entries, traversed, same⟩ := Effect.bind_eq_ok.mp listed
  cases same
  refine (Effect.mapM_eq_ok_iff.mp traversed).imp fun entry named referred => ?_
  obtain ⟨names, given, made⟩ := Effect.bind_eq_ok.mp referred
  cases made
  exact ⟨rfl, given⟩

theorem Review.names_references {rules : Table (Rule ω)} {table : Table (List String)}
    (listed : references rules = .ok table) : table.names = rules.names :=
  (entrywise_references listed).names.symm

theorem Review.exists_references_of_get? {rules : Table (Rule ω)} {table : Table (List String)}
    (listed : references rules = .ok table) {name : String} {rule : Rule ω}
    (found : rules.get? name = some rule) :
    ∃ names, table.get? name = some names ∧ referencesOf rule = .ok names := by
  have both := (entrywise_references listed).get? name
  rw [found] at both
  cases given : table.get? name with
  | none =>
    rw [given] at both
    cases both
  | some names =>
    rw [given] at both
    cases both with
    | some referred => exact ⟨names, rfl, referred⟩

theorem Review.get?_references_eq_none {rules : Table (Rule ω)} {table : Table (List String)}
    (listed : references rules = .ok table) {name : String} (absent : rules.get? name = none) :
    table.get? name = none := by
  rw [Table.get?_eq_none_iff, names_references listed]
  exact Table.get?_eq_none_iff.mp absent

theorem Review.exists_references_of_mem {rules : Table (Rule ω)} {table : Table (List String)}
    (listed : references rules = .ok table) {entry : String × Rule ω}
    (member : entry ∈ rules.entries) :
    ∃ named ∈ table.entries, referencesOf entry.2 = .ok named.2 := by
  obtain ⟨entries, traversed, same⟩ := Effect.bind_eq_ok.mp listed
  cases same
  obtain ⟨named, present, referred⟩ := Effect.exists_output_of_mem traversed member
  obtain ⟨names, given, made⟩ := Effect.bind_eq_ok.mp referred
  cases made
  exact ⟨_, present, given⟩

/-- If rules have references, then each of them has texts. -/
theorem Review.exists_texts_of_mem {rules : Table (Rule ω)} {table : Table (List String)}
    (listed : references rules = .ok table) {entry : String × Rule ω}
    (member : entry ∈ rules.entries) : ∃ texts, entry.2.texts = .ok texts := by
  obtain ⟨named, -, referred⟩ := exists_references_of_mem listed member
  obtain ⟨texts, known, -⟩ := Effect.bind_eq_ok.mp referred
  exact ⟨texts, known⟩

/-! ### Templates -/

section

variable {pattern : String} {bindings : Table (List Value)}

theorem closed_of_offers {values : List Value} {text : List Char}
    (closed : ∀ value ∈ values, ∀ text, value.text = .ok text → Closed text.toList)
    (offered : Offers values text) : Closed text := by
  rcases offered with ⟨-, rfl⟩ | ⟨value, member, shown⟩
  · exact closed_nil
  · simpa using closed value member _ shown

/-- What fills the slots of a template is closed if the values are. -/
theorem closed_of_binds {name : String} {text : List Char}
    (closed : ∀ entry ∈ bindings.entries, ∀ value ∈ entry.2, ∀ text, value.text = .ok text →
      Closed text.toList)
    (present : slot name ∈ ofText pattern.toList) (binds : Binds bindings name text) :
    Closed text := by
  unfold Binds at binds
  split at binds
  · rename_i values found
    exact closed_of_offers (closed _ (Table.mem_of_get? found)) binds
  · rw [binds]
    exact closed_written (isName_of_mem_ofText present)

/-- The parts of the text of a template without the slots of its variables, one for each segment. -/
def Rule.localParts (pattern : String) (bindings : Table (List Value)) : List (List Char) :=
  (ofText pattern.toList).map fun
    | slot name => if bindings.contains name then [] else (slot name).written
    | plain characters => characters

theorem flatten_localParts (pattern : String) (bindings : Table (List Value)) :
    (Rule.localParts pattern bindings).flatten = (Rule.localText pattern bindings).toList := by
  rw [Rule.localText, String.toList_ofList, List.flatMap_def]
  rfl

/-- A slot of a template that is not one of its variables stays in its local text. -/
theorem mem_names_localText {name : String}
    (uncrossed : Uncrossed (Rule.localParts pattern bindings))
    (present : slot name ∈ ofText pattern.toList) (absent : bindings.get? name = none) :
    name ∈ names (Rule.localText pattern bindings).toList := by
  have unbound : bindings.contains name = false := by simp [Table.contains, absent]
  have kept : (slot name).written ∈ Rule.localParts pattern bindings :=
    List.mem_map.mpr ⟨slot name, present, by simp [unbound]⟩
  rw [← flatten_localParts, names_flatten uncrossed]
  refine List.mem_flatMap.mpr ⟨_, kept, ?_⟩
  rw [names_written (isName_of_mem_ofText present)]
  exact List.mem_singleton_self name

/-- A slot of a filled template is one of a value of a variable or one of the template's own, if no
slot lies across an edge of what fills it. -/
theorem exists_text_or_slot_mem {parts : List (List Char)} {name : String}
    (replace : List.Forall₂ (Replaces (Binds bindings)) (ofText pattern.toList) parts)
    (uncrossed : Uncrossed parts) (member : name ∈ names parts.flatten) :
    (∃ text, (Rule.template pattern bindings : Rule ω).Shows text ∧ name ∈ names text.toList) ∨
      slot name ∈ ofText pattern.toList ∧ bindings.get? name = none := by
  obtain ⟨place, value, present, binds, inside⟩ :=
    exists_slot_of_mem_names replace uncrossed member
  unfold Binds at binds
  split at binds
  · rename_i values found
    rcases binds with ⟨-, rfl⟩ | ⟨source, among, shown⟩
    · simp [names, ofText] at inside
    · refine .inl ⟨String.ofList value, ⟨source, ?_, shown⟩, by rwa [String.toList_ofList]⟩
      exact List.mem_cons_of_mem _ (List.mem_flatMap.mpr ⟨_, Table.mem_of_get? found, among⟩)
  · rename_i absent
    rw [binds, names_written (isName_of_mem_ofText present)] at inside
    rw [List.mem_singleton.mp inside]
    exact .inr ⟨present, absent⟩

/-- A slot of a filled template is one of its texts' if no slot lies across an edge. -/
theorem exists_text_of_parts {parts : List (List Char)} {name : String}
    (whole : Uncrossed (Rule.localParts pattern bindings))
    (replace : List.Forall₂ (Replaces (Binds bindings)) (ofText pattern.toList) parts)
    (uncrossed : Uncrossed parts) (member : name ∈ names parts.flatten) :
    ∃ text, (Rule.template pattern bindings : Rule ω).Shows text ∧ name ∈ names text.toList := by
  rcases exists_text_or_slot_mem (ω := ω) replace uncrossed member with shown | ⟨present, absent⟩
  · exact shown
  · exact ⟨_, ⟨_, List.mem_cons_self, rfl⟩, mem_names_localText whole present absent⟩

theorem closed_of_mem_localParts {part : List Char} (closed : Closed pattern.toList)
    (member : part ∈ Rule.localParts pattern bindings) : Closed part := by
  obtain ⟨segment, present, rfl⟩ := List.mem_map.mp member
  cases segment with
  | plain characters => exact closed_of_percent_notMem (closed characters present)
  | slot name =>
    simp only
    split
    · exact closed_nil
    · exact closed_written (isName_of_mem_ofText present)

end

/-! ### What rules give -/

namespace Rule

variable {rule : Rule ω} {text : String}

/-- Every slot of a text that a rule gives is a slot of one of its texts. -/
theorem exists_text_of_gives (isData : rule.IsData) (closed : rule.TemplateClosed)
    (gives : rule.Gives text) {name : String} (member : name ∈ names text.toList) :
    ∃ shown, rule.Shows shown ∧ name ∈ names shown.toList := by
  have ofTexts (given : text = "" ∨ rule.Shows text) :
      ∃ shown, rule.Shows shown ∧ name ∈ names shown.toList := by
    rcases given with rfl | shown
    · simp [names, ofText] at member
    · exact ⟨text, shown, member⟩
  cases rule with
  | static | weighted | conditional | sequential => exact ofTexts gives
  | function => exact isData.elim
  | range bounds =>
    rw [names_of_percent_notMem gives] at member
    cases member
  | template pattern bindings =>
    obtain ⟨patternClosed, valuesClosed⟩ := closed
    obtain ⟨parts, replace, whole⟩ := fills_iff_exists_parts.mp (filled_iff_fills.mp gives)
    have partsClosed : ∀ part ∈ parts, Closed part := by
      intro part inside
      obtain ⟨segment, present, stands⟩ := exists_segment_of_mem replace inside
      cases segment with
      | plain characters =>
        rw [show part = characters from stands]
        exact closed_of_percent_notMem (patternClosed characters present)
      | slot place => exact closed_of_binds valuesClosed present stands
    rw [← whole] at member
    refine exists_text_of_parts ?_ replace ?_ member
    · exact uncrossed_of_closed fun part inside => closed_of_mem_localParts patternClosed inside
    · exact uncrossed_of_closed partsClosed

/-- A text that a rule gives is closed if all texts of the rule are. -/
theorem closed_of_gives (isData : rule.IsData) (closed : rule.TemplateClosed)
    (texts : ∀ text, rule.Shows text → Closed text.toList) (gives : rule.Gives text) :
    Closed text.toList := by
  have ofTexts (given : text = "" ∨ rule.Shows text) : Closed text.toList := by
    rcases given with rfl | shown
    · exact closed_nil
    · exact texts text shown
  cases rule with
  | static | weighted | conditional | sequential => exact ofTexts gives
  | function => exact isData.elim
  | range bounds => exact closed_of_percent_notMem gives
  | template pattern bindings =>
    obtain ⟨patternClosed, valuesClosed⟩ := closed
    exact closed_of_fills patternClosed
      (fun _ _ present binds => closed_of_binds valuesClosed present binds)
      (filled_iff_fills.mp gives)

end Rule

end TextGrammar
