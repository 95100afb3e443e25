import TextGrammar.Proofs.Cycle.Reported
import TextGrammar.Proofs.Expansion.Drawing
import TextGrammar.Proofs.Expansion.Limit

/-!
Draws around a cycle. Main statement: if a review of static rules reports a cycle, then some text
runs into the depth limit for some draws, whatever the limit is.
-/

namespace TextGrammar

variable {ω : Type}

def Rule.IsStatic : Rule ω → Prop
  | static _ => True
  | _ => False

theorem Rule.IsStatic.textual {rule : Rule ω} (static : rule.IsStatic) : rule.Textual := by
  cases rule <;> trivial

namespace Expansion

open Effect Run

/-! ### Steps that run into the limit -/

/-- For some draws the step fails at the limit, with these draws used up and those behind them
untouched. -/
def Breaks (start : Engine Script ω) {α : Type} (step : Expansion Script ω α) : Prop :=
  ∃ refused draws, ∀ run later, StemsFrom start run → run.ahead = draws ++ later →
    ∃ behind, step run = (.error (.tooDeep start.maxDepth refused), behind) ∧ behind.ahead = later

/-- For some draws the step gives a value, or fails at the limit. -/
def Settles (start : Engine Script ω) {α : Type} (step : Expansion Script ω α) : Prop :=
  (∃ value, Reaches (StemsFrom start) Run.ahead step value) ∨ Breaks start step

variable {start : Engine Script ω} {recording : Bool} {name : String} {rule : Rule ω}
  {pieces : List Segment}

section

variable {α β : Type} {step : Expansion Script ω α} {next : α → Expansion Script ω β}

theorem Breaks.bind (breaks : Breaks start step) : Breaks start (step >>= next) := by
  obtain ⟨refused, draws, fails⟩ := breaks
  refine ⟨refused, draws, fun run later stems same => ?_⟩
  obtain ⟨behind, failed, left⟩ := fails run later stems same
  rw [bind_apply, failed]
  exact ⟨behind, rfl, left⟩

theorem breaks_behind {value : α} (reaches : Reaches (StemsFrom start) Run.ahead step value)
    (breaks : Breaks start (next value)) : Breaks start (step >>= next) := by
  obtain ⟨draws, given⟩ := reaches
  obtain ⟨refused, more, fails⟩ := breaks
  refine ⟨refused, draws ++ more, fun run later stems same => ?_⟩
  rw [List.append_assoc] at same
  obtain ⟨middle, stepped, kept, left⟩ := given run (more ++ later) stems same
  rw [bind_apply, stepped]
  exact fails middle later kept left

theorem Settles.bind (first : Settles start step) (second : ∀ value, Settles start (next value)) :
    Settles start (step >>= next) := by
  rcases first with ⟨value, reaches⟩ | breaks
  · rcases second value with ⟨result, goesOn⟩ | breaks
    · exact .inl ⟨result, reaches_bind reaches goesOn⟩
    · exact .inr (breaks_behind reaches breaks)
  · exact .inr breaks.bind

theorem settles_pure (value : α) : Settles start (pure value : Expansion Script ω α) :=
  .inl ⟨value, reaches_pure value⟩

end

/-! ### Slots -/

/-- On the last level every slot of a rule is refused, without any draws. -/
theorem breaks_slot_none (found : start.rules.get? name = some rule) :
    Breaks start (slot recording none name) := by
  refine ⟨name, [], fun run later stems same => ?_⟩
  cases present : run.engine.rules.get? name with
  | none =>
    rw [(absent_iff stems).mp present] at found
    cases found
  | some kept =>
    rw [slot_of_found_none present, stems.maxDepth]
    exact ⟨run, rfl, same⟩

/-- A static rule of rules that have texts offers one. -/
theorem exists_offers {rules : Table (Rule ω)} {table : Table (List String)}
    (listed : Review.references rules = .ok table) {values : List Value}
    (found : rules.get? name = some (.static values)) : ∃ text, Offers values text := by
  cases values with
  | nil => exact ⟨[], .inl ⟨rfl, rfl⟩⟩
  | cons first rest =>
    obtain ⟨texts, known⟩ := Review.exists_texts_of_mem listed (Table.mem_of_get? found)
    obtain ⟨text, -, shown⟩ := exists_output_of_mem known List.mem_cons_self
    exact ⟨text.toList, .inr ⟨first, List.mem_cons_self, by rw [shown, String.ofList_toList]⟩⟩

section

variable {inner : List Char → Expansion Script ω (List Char)} {table : Table (List String)}
  (static : ∀ entry ∈ start.rules.entries, entry.2.IsStatic)

include static

/-- A slot runs into the limit if one of the texts of its rule does. -/
theorem breaks_slot_some {candidate : List Char} (found : start.rules.get? name = some rule)
    (chosen : rule.Candidate candidate) (breaks : Breaks start (inner candidate)) :
    Breaks start (slot recording (some inner) name) := by
  have spelled : candidate = (String.ofList candidate).toList := by simp
  have has : start.rules.HasRule name rule := by simp [Table.HasRule, found]
  rw [spelled] at chosen breaks
  have steps : Breaks start
      (do
        let text ← resolve name rule
        let value ← inner text.toList
        record recording name value
        return value : Expansion Script ω (List Char)) :=
    breaks_behind (reaches_resolve has chosen) breaks.bind
  obtain ⟨refused, draws, fails⟩ := steps
  refine ⟨refused, draws, fun run later stems same => ?_⟩
  rw [slot_of_textual (fun entry member => (static entry member).textual) found stems]
  exact fails run later stems same

theorem settles_slot_some (listed : Review.references start.rules = .ok table)
    (settles : ∀ text, Settles start (inner text)) (name : String) :
    Settles start (slot recording (some inner) name) := by
  cases found : start.rules.get? name with
  | none => exact .inl ⟨_, reaches_slot_absent found⟩
  | some rule =>
    have isStatic := static _ (Table.mem_of_get? found)
    cases rule with
    | static values =>
      obtain ⟨candidate, offered⟩ := exists_offers listed found
      rcases settles candidate with ⟨value, reaches⟩ | breaks
      · exact .inl ⟨value, reaches_slot_found
          (fun entry member => (static entry member).textual) found (.static offered) reaches⟩
      · exact .inr (breaks_slot_some static found (.static offered) breaks)
    | _ => exact isStatic.elim

end

theorem settles_slot_none (name : String) : Settles start (slot recording none name) := by
  cases found : start.rules.get? name with
  | none => exact .inl ⟨_, reaches_slot_absent found⟩
  | some rule => exact .inr (breaks_slot_none found)

/-! ### Texts -/

section

variable {slot : String → Expansion Script ω (List Char)}
  (settles : ∀ name, Settles start (slot name))

include settles

theorem settles_segments (pieces : List Segment) : Settles start (segments slot pieces) := by
  induction pieces with
  | nil => exact settles_pure []
  | cons first rest ih =>
    cases first with
    | plain characters => exact ih.bind fun more => settles_pure _
    | slot name => exact (settles name).bind fun value => ih.bind fun more => settles_pure _

/-- If one slot runs into the limit, then all do: those before it give a text first, or run into the
limit themselves. -/
theorem breaks_segments (member : .slot name ∈ pieces) (breaks : Breaks start (slot name)) :
    Breaks start (segments slot pieces) := by
  induction pieces with
  | nil => cases member
  | cons first rest ih =>
    cases first with
    | plain characters => exact (ih (by simpa using member)).bind
    | slot other =>
      rcases List.mem_cons.mp member with same | member
      · cases same
        exact breaks.bind
      · rcases settles other with ⟨value, reaches⟩ | early
        · exact breaks_behind reaches (ih member).bind
        · exact early.bind

end

variable {table : Table (List String)}
  (static : ∀ entry ∈ start.rules.entries, entry.2.IsStatic)
  (listed : Review.references start.rules = .ok table)

include static listed

/-- Static rules fail at the limit only, so every text is settled. -/
theorem settles_expand (depth : Nat) (text : List Char) :
    Settles start (expand recording depth text) := by
  induction depth generalizing text with
  | zero => exact settles_segments settles_slot_none _
  | succ depth ih => exact settles_segments (settles_slot_some static listed ih) _

/-- A text with a slot on a cycle runs into the limit: from each rule of the cycle the draws choose
a value that refers to the next one. -/
theorem breaks_expand (depth : Nat) {text : List Char} (member : name ∈ Segment.names text)
    (circular : Cycle.OnCycle table name) :
    Breaks start (expand recording depth text) := by
  induction depth generalizing text name with
  | zero =>
    obtain ⟨next, refers, -⟩ := circular.exists_next
    obtain ⟨rule, found, -⟩ := (Review.refers_iff listed).mp refers
    exact breaks_segments settles_slot_none (Segment.mem_names_iff.mp member)
      (breaks_slot_none found)
  | succ depth ih =>
    obtain ⟨next, refers, circular⟩ := circular.exists_next
    obtain ⟨rule, found, ⟨text, ⟨value, among, shown⟩, inside⟩, -⟩ :=
      (Review.refers_iff listed).mp refers
    have chosen : Offers rule.candidates text.toList :=
      .inr ⟨value, among, by rw [shown, String.ofList_toList]⟩
    refine breaks_segments (settles_slot_some static listed (settles_expand static listed depth))
      (Segment.mem_names_iff.mp member) ?_
    have isStatic := static _ (Table.mem_of_get? found)
    cases rule with
    | static values =>
      exact breaks_slot_some static found (.static chosen) (ih inside circular)
    | _ => exact isStatic.elim

omit static listed

/-- If a text runs into the limit, then its generation fails with what happens there. -/
theorem fails_of_breaks {run : Run Script ω} {text : String} {preserve : Bool}
    (breaks : Breaks run.engine (expand preserve run.engine.maxDepth.toNat text.toList)) :
    ∃ refused draws, ∀ later, ∃ behind,
      generate text preserve (run.withDraws (draws ++ later)) =
        (.error (.tooDeep run.engine.maxDepth refused), behind) ∧ behind.ahead = later := by
  obtain ⟨refused, draws, fails⟩ := breaks
  refine ⟨refused, draws, fun later => ?_⟩
  have stems : StemsFrom run.engine (prepared preserve (run.withDraws (draws ++ later))) := by
    cases preserve <;> exact ⟨rfl, rfl, rfl⟩
  have ahead : (prepared preserve (run.withDraws (draws ++ later))).ahead = draws ++ later := by
    cases preserve <;> rfl
  obtain ⟨behind, failed, left⟩ := fails _ later stems ahead
  have depth : (run.withDraws (draws ++ later)).engine.maxDepth = run.engine.maxDepth := rfl
  refine ⟨behind, ?_, left⟩
  rw [generate_apply, depth, bind_apply, failed]

/-- If a review of static rules reports a cycle, there is a text whose generation fails at every
limit, for some draws that it uses up. -/
theorem cycle_meets_limit (run : Run Script ω)
    (static : ∀ entry ∈ run.engine.rules.entries, entry.2.IsStatic) {review : Review}
    (reviewed : run.engine.review = .ok review) (reported : review.cycles ≠ []) :
    ∃ text : String, ∀ (limit : Int) (preserve : Bool),
      ∃ (refused : String) (draws : List Number), ∀ later : List Number, ∃ behind,
        generate text preserve ((run.withLimit limit).withDraws (draws ++ later)) =
          (.error (.tooDeep limit refused), behind) ∧ behind.ahead = later := by
  obtain ⟨table, listed, reviewed⟩ := bind_eq_ok.mp reviewed
  obtain ⟨warnings, -, same⟩ := bind_eq_ok.mp reviewed
  cases same
  obtain ⟨name, circular⟩ : ∃ name, Cycle.OnCycle table name := by
    by_contra none
    exact reported (Cycle.find_eq_nil_iff.mpr (not_exists.mp none))
  -- a name on a cycle stands in a slot, so it can be written as one
  have isName : Segment.IsName name.toList := by
    obtain ⟨last, -, refers⟩ := Relation.TransGen.tail'_iff.mp circular
    obtain ⟨rule, -, ⟨text, -, inside⟩, -⟩ := (Review.refers_iff listed).mp refers
    exact Segment.isName_of_mem_ofText (Segment.mem_names_iff.mp inside)
  have member : name ∈ Segment.names (String.ofList (Segment.slot name).written).toList := by
    rw [String.toList_ofList, Segment.names_written isName]
    exact List.mem_singleton_self name
  refine ⟨String.ofList (Segment.slot name).written, fun limit preserve => ?_⟩
  have kept : ∀ entry ∈ (run.withLimit limit).engine.rules.entries, entry.2.IsStatic := static
  exact fails_of_breaks (breaks_expand kept listed limit.toNat member circular)

/-- A tale that may end, or go on with a reply that begins it again. -/
def retelling : Run Script Unit :=
  ⟨{ rules := ⟨[("tale", .static [.str "the end", .str "%opening%, %reply%"]),
      ("opening", .static [.str "once", .str "then"]), ("reply", .static [.str "and so %tale%"])]⟩,
     modifiers := .empty, context := .empty, maxDepth := 100, seed := none,
     generator := ⟨[], []⟩ }, (), []⟩

theorem retelling_meets_limit :
    retelling.engine.review = .ok ⟨[], [["tale", "reply"]], []⟩ ∧
    ∃ text : String, ∀ (limit : Int) (preserve : Bool),
      ∃ (refused : String) (draws : List Number), ∀ later : List Number, ∃ behind,
        generate text preserve ((retelling.withLimit limit).withDraws (draws ++ later)) =
          (.error (.tooDeep limit refused), behind) ∧ behind.ahead = later := by
  have reviewed : retelling.engine.review = .ok ⟨[], [["tale", "reply"]], []⟩ := by cbv
  have static : ∀ entry ∈ retelling.engine.rules.entries, entry.2.IsStatic := by
    simp [retelling, Rule.IsStatic]
  exact ⟨reviewed, cycle_meets_limit retelling static reviewed (List.cons_ne_nil _ _)⟩

end Expansion

end TextGrammar
