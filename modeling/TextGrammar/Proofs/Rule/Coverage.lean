import TextGrammar.Proofs.Cycle.Reported

/-!
What a review sees of the texts that templates give. Main statement: every slot of such a text is
one of the texts of the template if no slot lies across an edge between the parts that make it up,
but for the template's own slots where taking out the variables joins what stands around them.
-/

namespace TextGrammar

open Segment

variable {ρ ω : Type}

/-- The parts may stand for the segments of a template, one for each, and make up a text. -/
def Rule.MadeOf (pattern : String) (bindings : Table (List Value)) (parts : List (List Char))
    (text : String) : Prop :=
  List.Forall₂ (Replaces (Binds bindings)) (ofText pattern.toList) parts ∧
    parts.flatten = text.toList

/-- A text of the rule has a slot of the name, so that a review of rules with this one follows the
name to its rule or reports it as missing. -/
structure Rule.Covers (rule : Rule ω) (name : String) : Prop where
  shown : ∃ texts, rule.texts = .ok texts ∧ ∃ text ∈ texts, name ∈ names text.toList
  reviewed {rules : Table (Rule ω)} {owner : String} {review : Review}
    {references : Table (List String)} :
    rules.get? owner = some rule → Review.ofRules rules = .ok review →
      Review.references rules = .ok references →
        Cycle.Refers references owner name ∨ name ∈ review.missing

theorem Review.refers_or_missing {rules : Table (Rule ω)} {owner name : String} {rule : Rule ω}
    {review : Review} {table : Table (List String)} (found : rules.get? owner = some rule)
    (shown : ∃ text, rule.Shows text ∧ name ∈ names text.toList)
    (reviewed : ofRules rules = .ok review) (listed : references rules = .ok table) :
    Cycle.Refers table owner name ∨ name ∈ review.missing := by
  obtain ⟨also, same, reviewed⟩ := Effect.bind_eq_ok.mp reviewed
  obtain ⟨warnings, -, made⟩ := Effect.bind_eq_ok.mp reviewed
  rw [listed] at same
  cases same
  cases made
  by_cases known : name ∈ rules.names
  · exact .inl ((refers_iff listed).mpr ⟨rule, found, shown, known⟩)
  · obtain ⟨targets, given, referred⟩ := exists_references_of_get? listed found
    refine .inr (mem_missingNames.mpr ⟨⟨_, Table.mem_of_get? given, ?_⟩, ?_⟩)
    · exact (mem_referencesOf referred).mpr shown
    · rwa [names_references listed]

theorem Rule.covers_of_shown {rule : Rule ω} {name : String} {texts : List String}
    (listed : rule.texts = .ok texts) (shown : ∃ text, rule.Shows text ∧ name ∈ names text.toList) :
    rule.Covers name := by
  refine ⟨?_, fun found reviewed => Review.refers_or_missing found shown reviewed⟩
  obtain ⟨text, shows, inside⟩ := shown
  exact ⟨texts, listed, text, (mem_texts_iff listed).mpr shows, inside⟩

/-- A template whose values have texts gives a text made of parts, whatever is drawn. -/
theorem Rule.keeps_template [Draws ρ] {pattern : String} {bindings : Table (List Value)}
    (shown : ∀ entry ∈ bindings.entries, ∀ value ∈ entry.2, ∃ text, value.text = .ok text)
    (context : Table String) :
    Effect.Keeps (fun _ => True) (fun text => ∃ parts, MadeOf pattern bindings parts text)
      (fun _ => False) ((template pattern bindings).pick (ρ := ρ) (ω := ω) context) := by
  have faults : ∀ entry ∈ bindings.entries, ∀ value ∈ entry.2, ∀ reason,
      value.text = .error reason → False := by
    intro entry member value inside reason failed
    obtain ⟨text, given⟩ := shown entry member value inside
    rw [given] at failed
    cases failed
  refine Effect.keeps_bind (Pick.keeps_template faults _) fun filled fills => ?_
  obtain ⟨parts, replace, whole⟩ := fills_iff_exists_parts.mp fills
  exact Effect.keeps_pure ⟨parts, replace, by rw [whole, String.toList_ofList]⟩

/-- If the values of its variables have texts, a template gives a text. Every slot of such a text is
covered if no slot lies across an edge between its parts, or is one of the template's own that its
text without variables has lost. -/
theorem Rule.template_covers [Draws ρ] {pattern : String} {bindings : Table (List Value)}
    {texts : List String} (listed : (template pattern bindings : Rule ω).texts = .ok texts)
    (context : Table String) (sources : Sources ρ ω) :
    ∃ text later, (template pattern bindings).pick context sources = (.ok text, later) ∧
      (∃ parts, MadeOf pattern bindings parts text) ∧
      ∀ parts, MadeOf pattern bindings parts text → Uncrossed parts →
        ∀ name ∈ names text.toList,
          (template pattern bindings : Rule ω).Covers name ∨
            ¬ Uncrossed (localParts pattern bindings) ∧
              slot name ∈ ofText pattern.toList ∧ bindings.get? name = none := by
  have shown : ∀ entry ∈ bindings.entries, ∀ value ∈ entry.2, ∃ text, value.text = .ok text := by
    intro entry member value inside
    have known : value ∈ (template pattern bindings : Rule ω).candidates :=
      List.mem_cons_of_mem _ (List.mem_flatMap.mpr ⟨entry, member, inside⟩)
    obtain ⟨text, -, shown⟩ := Effect.exists_output_of_mem listed known
    exact ⟨text, shown⟩
  obtain ⟨text, later, picked, -, made⟩ :=
    (keeps_template shown context).exists_ok sources trivial
  refine ⟨text, later, picked, made, ?_⟩
  rintro parts ⟨replace, whole⟩ uncrossed name member
  rw [← whole] at member
  by_cases together : Uncrossed (localParts pattern bindings)
  · exact .inl (covers_of_shown listed (exists_text_of_parts together replace uncrossed member))
  · rcases exists_text_or_slot_mem (ω := ω) replace uncrossed member with shown | own
    · exact .inl (covers_of_shown listed shown)
    · exact .inr ⟨together, own⟩

def share : Table (List Value) := ⟨[("share", [.str "100%"])]⟩

/-- A percent sign at the end of a value does no harm if no name stands behind it. -/
theorem animal_of_owners_is_covered :
    ∃ later, (Rule.template "%share% of %animal% owners" share).pick .empty
        (⟨⟨[], []⟩, (), []⟩ : Sources Script Unit) = (.ok "100% of %animal% owners", later) ∧
      (Rule.template "%share% of %animal% owners" share : Rule Unit).Covers "animal" := by
  have listed : (Rule.template "%share% of %animal% owners" share : Rule Unit).texts =
      .ok [" of %animal% owners", "100%"] := by cbv
  obtain ⟨text, later, picked, -, covers⟩ :=
    Rule.template_covers listed .empty (⟨⟨[], []⟩, (), []⟩ : Sources Script Unit)
  have drawn : ((.ok text, later) : Except Failure String × Sources Script Unit) =
      (.ok "100% of %animal% owners", ⟨⟨[], [.below 1]⟩, (), []⟩) := by
    rw [← picked]
    cbv
  cases drawn
  have segments : ofText "%share% of %animal% owners".toList =
      [slot "share", plain " of ".toList, slot "animal", plain " owners".toList] := by cbv
  have made : Rule.MadeOf "%share% of %animal% owners" share
      ["100%".toList, " of ".toList, "%animal%".toList, " owners".toList]
      "100% of %animal% owners" := by
    refine ⟨?_, by cbv⟩
    rw [segments]
    refine .cons ?_ (.cons rfl (.cons ?_ (.cons rfl .nil)))
    · exact .inr ⟨.str "100%", List.mem_cons_self, rfl⟩
    · exact (by cbv : "%animal%".toList = (slot "animal").written)
  have slots : names "100% of %animal% owners".toList = ["animal"] := by cbv
  have named : "animal" ∈ names "100% of %animal% owners".toList := by
    rw [slots]
    exact List.mem_singleton_self _
  have covered := covers _ made (isUncrossed_iff.mp (by cbv)) "animal" named
  refine ⟨_, picked, covered.resolve_right fun lost => lost.1 ?_⟩
  exact isUncrossed_iff.mp (by cbv)

/-- Every slot of a text that the rule gives is a slot of one of its texts. -/
def Rule.Announces (rule : Rule ω) : Prop :=
  ∀ (context : Table String) (sources later : Sources Script ω) (text : String)
      (texts : List String), rule.pick context sources = (.ok text, later) →
    rule.texts = .ok texts →
      ∀ name ∈ names text.toList, ∃ shown ∈ texts, name ∈ names shown.toList

theorem Rule.not_announces {rule : Rule ω} {context : Table String}
    {sources later : Sources Script ω} {text : String} {texts : List String}
    (picked : rule.pick context sources = (.ok text, later)) (listed : rule.texts = .ok texts)
    (lost : ¬ names text.toList ⊆ texts.flatMap fun shown => names shown.toList) :
    ¬ rule.Announces := by
  intro announces
  refine lost fun name member => List.mem_flatMap.mpr ?_
  exact announces context sources later text texts picked listed name member

/-- The value opens a slot that the characters behind it close; and a slot of the template is lost
where a variable between its neighbours is taken out. -/
theorem joined_slots_are_not_announced :
    ¬ (Rule.template "%size%cat%" ⟨[("size", [.str "%big"])]⟩ : Rule Unit).Announces ∧
      ¬ (Rule.template "%%mark%b%c%" ⟨[("mark", [.str "-"])]⟩ : Rule Unit).Announces := by
  constructor
  · have picked : (Rule.template "%size%cat%" ⟨[("size", [.str "%big"])]⟩).pick .empty
        (⟨⟨[], []⟩, (), []⟩ : Sources Script Unit) =
          (.ok "%bigcat%", ⟨⟨[], [.below 1]⟩, (), []⟩) := by cbv
    have listed : (Rule.template "%size%cat%" ⟨[("size", [.str "%big"])]⟩ : Rule Unit).texts =
        .ok ["cat%", "%big"] := by cbv
    have slots : names "%bigcat%".toList = ["bigcat"] := by cbv
    have known : (["cat%", "%big"].flatMap fun shown => names shown.toList) = [] := by cbv
    refine Rule.not_announces picked listed ?_
    rw [slots, known]
    decide
  · have picked : (Rule.template "%%mark%b%c%" ⟨[("mark", [.str "-"])]⟩).pick .empty
        (⟨⟨[], []⟩, (), []⟩ : Sources Script Unit) =
          (.ok "%-b%c%", ⟨⟨[], [.below 1]⟩, (), []⟩) := by cbv
    have listed : (Rule.template "%%mark%b%c%" ⟨[("mark", [.str "-"])]⟩ : Rule Unit).texts =
        .ok ["%b%c%", "-"] := by cbv
    have slots : names "%-b%c%".toList = ["c"] := by cbv
    have known : (["%b%c%", "-"].flatMap fun shown => names shown.toList) = ["b"] := by cbv
    refine Rule.not_announces picked listed ?_
    rw [slots, known]
    decide

end TextGrammar
