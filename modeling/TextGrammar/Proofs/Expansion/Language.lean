import TextGrammar.Proofs.Expansion.Step
import TextGrammar.Proofs.Rule.Choice

/-!
The language of a grammar of static and template rules: which texts derive from a text, with
nesting up to a bound. Whatever is drawn, an expansion gives a text that derives.
-/

namespace TextGrammar

variable {ρ ω : Type}

/-! ### Derivations -/

namespace Rule

/-- A static rule or a template. -/
def Textual : Rule ω → Prop
  | static _ | template .. => True
  | _ => False

/-- The texts that a static rule or a template may resolve to. Each slot of a template is filled
on its own. -/
inductive Candidate : Rule ω → List Char → Prop where
  | static {values : List Value} {text : List Char} (offered : Offers values text) :
      Candidate (static values) text
  | template {text : String} {bindings : Table (List Value)} {filled : List Char}
      (fills : Segment.Filled (Binds bindings) text.toList filled) :
      Candidate (template text bindings) filled

variable {rule : Rule ω}

theorem Candidate.textual {text : List Char} (candidate : rule.Candidate text) : rule.Textual := by
  cases candidate <;> trivial

theorem textual_reset : rule.reset.Textual ↔ rule.Textual := by cases rule <;> rfl

/-- Static rules and templates have no place. -/
theorem reset_of_textual (textual : rule.Textual) : rule.reset = rule := by
  cases rule with
  | sequential => cases textual
  | _ => rfl

end Rule

/-- What may stand for a slot: the slot as it is written if it names no rule, otherwise what one of
the candidates of the rule becomes. -/
def Stands (rules : Table (Rule ω)) (becomes : List Char → List Char → Prop) (name : String)
    (text : List Char) : Prop :=
  match rules.get? name with
  | none => text = (Segment.slot name).written
  | some rule => ∃ candidate, rule.Candidate candidate ∧ becomes candidate text

/-- The texts that derive from a text with nesting up to a bound: its slots that name rules are
replaced by texts that derive from candidates with one level less, all else stays. Without levels
no slot may name a rule. -/
def Derives (rules : Table (Rule ω)) : Nat → List Char → List Char → Prop
  | 0 => Segment.Filled (Stands rules fun _ _ => False)
  | depth + 1 => Segment.Filled (Stands rules (Derives rules depth))

/-- What may stand for a slot of a text that is given so many levels. -/
def StandsAt (rules : Table (Rule ω)) : Nat → String → List Char → Prop
  | 0 => Stands rules fun _ _ => False
  | depth + 1 => Stands rules (Derives rules depth)

theorem derives_iff_fills {rules : Table (Rule ω)} {depth : Nat} {text out : List Char} :
    Derives rules depth text out ↔
      Segment.Fills (StandsAt rules depth) (Segment.ofText text) out := by
  cases depth with
  | zero => exact Segment.filled_iff_fills
  | succ depth => exact Segment.filled_iff_fills

theorem standsAt_iff_of_absent {rules : Table (Rule ω)} {name : String} {depth : Nat}
    {text : List Char} (absent : rules.get? name = none) :
    StandsAt rules depth name text ↔ text = (Segment.slot name).written := by
  cases depth with
  | zero => simp [StandsAt, Stands, absent]
  | succ depth => simp [StandsAt, Stands, absent]

theorem Table.get?_of_hasRule {rules : Table (Rule ω)} {name : String} {rule : Rule ω}
    (textual : ∀ entry ∈ rules.entries, entry.2.Textual) (has : rules.HasRule name rule) :
    rules.get? name = some rule ∧ rule.Textual := by
  obtain ⟨kept, found, same⟩ := has.exists_entry
  have keptTextual : kept.Textual := textual _ (mem_of_get? found)
  have ruleTextual : rule.Textual := by
    rw [← Rule.textual_reset, ← same, Rule.textual_reset]
    exact keptTextual
  rw [Rule.reset_of_textual keptTextual, Rule.reset_of_textual ruleTextual] at same
  rw [← same]
  exact ⟨found, keptTextual⟩

namespace Expansion

open Effect Run

/-! ### Every text that is given derives -/

variable [Draws ρ] {fails : Failure → Prop}

theorem keeps_pick {rule : Rule ω} (textual : rule.Textual)
    (faults : ∀ reason, fails (.fault reason)) (context : Table String) :
    Keeps (fun _ => True) (fun text => rule.Candidate text.toList) fails
      (rule.pick (ρ := ρ) context) := by
  cases rule with
  | static values =>
    exact (Pick.keeps_uniform fun _ _ reason _ => faults reason).imp
      fun _ offered => .static offered
  | template text bindings =>
    refine keeps_bind (Pick.keeps_template (fun _ _ _ _ reason _ => faults reason) _)
      fun filled fills => ?_
    refine keeps_pure (.template (Segment.filled_iff_fills.mpr ?_))
    simpa using fills
  | _ => cases textual

/-- Whatever the source of draws, an expansion gives a text that derives. -/
theorem keeps_expand (start : Engine ρ ω) {recording : Bool}
    (textual : ∀ entry ∈ start.rules.entries, entry.2.Textual) (depth : Nat)
    (text : List Char) :
    Keeps (StemsFrom start) (Derives start.rules depth text) (fun _ => True)
      (expand recording depth text) := by
  refine keeps_expand_of (fun _ _ => True) (StandsAt start.rules) (Derives start.rules)
    (fun _ _ _ _ => derives_iff_fills.mpr)
    (fun _ _ _ _ _ absent => (standsAt_iff_of_absent absent).mpr rfl)
    (fun _ _ _ _ _ => trivial) ?_ trivial
  intro depth text name rule _ _ has context
  obtain ⟨found, isTextual⟩ := Table.get?_of_hasRule textual has
  refine (keeps_pick isTextual (fun _ => trivial) context).imp
    fun value candidate => ⟨trivial, ?_⟩
  intro out derives
  simp only [StandsAt, Stands, found]
  exact ⟨_, candidate, derives⟩

end Expansion

end TextGrammar
