import Mathlib
import TextGrammar.Engine.Review
import TextGrammar.Proofs.Cycle.Component
import TextGrammar.Proofs.Rule.References
import TextGrammar.Random.Script

/-!
Which rules on cycles a review reports. Main statements: a rule on a cycle is connected with all
rules of a reported one, and is on a reported one itself if no rule before it leads to it. A rule
that is first met when what it refers to has been left need not be on any.
-/

namespace TextGrammar

open Relation

namespace Cycle

variable {references : Table (List String)} {path front back : List String}
  {earlier between later : Search} {name : String}

theorem Follows.exists_between (follows : Follows references path (front ++ back) earlier later) :
    ∃ between, Follows references path front earlier between ∧
      Follows references path back between later := by
  induction front generalizing earlier with
  | nil => exact ⟨earlier, .done, follows⟩
  | cons target rest ih =>
    cases follows with
    | unknown absent behind =>
      obtain ⟨between, first, second⟩ := ih behind
      exact ⟨between, .unknown absent first, second⟩
    | circular known onPath behind =>
      obtain ⟨between, first, second⟩ := ih behind
      exact ⟨between, .circular known onPath first, second⟩
    | left known fresh old behind =>
      obtain ⟨between, first, second⟩ := ih behind
      exact ⟨between, .left known fresh old first, second⟩
    | entered known fresh new inside behind =>
      obtain ⟨between, first, second⟩ := ih behind
      exact ⟨between, .entered known fresh new inside first, second⟩

/-- Only names that those which are followed lead to are left. -/
theorem Follows.leads_of_mem_done {targets : List String}
    (follows : Follows references path targets earlier later) (left : name ∈ later.done)
    (new : name ∉ earlier.done) :
    ∃ target ∈ targets, target ∈ references.names ∧
      ReflTransGen (Refers references) target name := by
  have further {target : String} {rest : List String}
      (found : ∃ other ∈ rest, other ∈ references.names ∧
        ReflTransGen (Refers references) other name) :
      ∃ other ∈ target :: rest, other ∈ references.names ∧
        ReflTransGen (Refers references) other name := by
    obtain ⟨other, member, leads⟩ := found
    exact ⟨other, List.mem_cons_of_mem _ member, leads⟩
  induction follows with
  | done => exact absurd left new
  | unknown _ _ ih | left _ _ _ _ ih => exact further (ih left new)
  | circular _ _ _ ih =>
    rw [close_done] at ih
    exact further (ih left new)
  | @entered path rest inner earlier between later known _ _ _ _ ihInside ihBehind =>
    by_cases old : name ∈ (between.leave inner).done
    · refine ⟨inner, List.mem_cons_self, known, ?_⟩
      rcases List.mem_cons.mp old with rfl | old
      · exact .refl
      · obtain ⟨target, refers, known, leads⟩ := ihInside old new
        exact .head ⟨refers, known⟩ leads
    · exact further (ihBehind left old)

/-- A name on a cycle is on one that is found if no name in front of it in the table leads to it. -/
theorem exists_find_mem (circular : OnCycle references name)
    (split : references.names = front ++ name :: back)
    (first : ∀ earlier ∈ front, ¬ ReflTransGen (Refers references) earlier name) :
    ∃ cycle ∈ find references, name ∈ cycle := by
  have follows := follows_searched references
  rw [split] at follows
  obtain ⟨before, front, rest⟩ := follows.exists_between
  -- what leads to the name has not been left when its turn comes
  have apart : ∀ other, Connected references name other → other ∉ before.done := by
    intro other connected left
    obtain ⟨target, member, -, leads⟩ := front.leads_of_mem_done left List.not_mem_nil
    exact first target member (leads.trans connected.2)
  cases rest with
  | unknown absent => exact absurd circular.mem_names absent
  | circular _ onPath => cases onPath
  | left _ _ old => exact absurd old (apart name (.refl name))
  | entered _ _ _ inside behind =>
    obtain ⟨enclosed, -⟩ := front.enclosed (enclosed_nil [])
    have reports := reports_of_first inside enclosed circular fun other connected =>
      ⟨List.not_mem_nil, apart other connected⟩
    exact behind.grows.reports ((grows_leave _ name).reports reports)

end Cycle

open TextGrammar.Cycle

variable {ρ ω : Type}

/-- A rule refers to a name if one of its texts has a slot of this name, and there is a rule. -/
theorem Review.refers_iff {rules : Table (Rule ω)} {table : Table (List String)}
    (listed : references rules = .ok table) {source target : String} :
    Refers table source target ↔
      ∃ rule, rules.get? source = some rule ∧
        (∃ text, rule.Shows text ∧ target ∈ Segment.names text.toList) ∧ target ∈ rules.names := by
  rw [Refers, names_references listed]
  cases found : rules.get? source with
  | none => simp [get?_references_eq_none listed found]
  | some rule =>
    obtain ⟨names, given, referred⟩ := exists_references_of_get? listed found
    simp [given, mem_referencesOf referred]

/-- In a review, a rule on a cycle of references is connected with all rules of a reported cycle. It
is on a reported cycle itself if no rule that stands before it leads to it. -/
theorem Engine.review_reports_connected (engine : Engine ρ ω) {review : Review}
    (reviewed : engine.review = .ok review) {references : Table (List String)}
    (listed : Review.references engine.rules = .ok references) {name : String}
    (circular : OnCycle references name) :
    (∃ cycle ∈ review.cycles, ∀ member ∈ cycle, Connected references name member) ∧
    ∀ front back, engine.rules.names = front ++ name :: back →
      (∀ earlier ∈ front, ¬ ReflTransGen (Refers references) earlier name) →
      ∃ cycle ∈ review.cycles, name ∈ cycle := by
  obtain ⟨table, also, reviewed⟩ := Effect.bind_eq_ok.mp reviewed
  obtain ⟨warnings, -, same⟩ := Effect.bind_eq_ok.mp reviewed
  rw [listed] at also
  cases also
  cases same
  refine ⟨exists_mem_find circular, fun front back split first => ?_⟩
  rw [← Review.names_references listed] at split
  exact exists_find_mem circular split first

/-- Three rules on cycles: the story refers to the hero and to the place, the hero to the story, and
the place to the hero. -/
def legend : Engine Script Unit :=
  { rules := ⟨[("story", .static [.str "%hero% in %place%"]), ("hero", .static [.str "%story%"]),
      ("place", .static [.str "the home of %hero%"])]⟩,
    modifiers := .empty, context := .empty, maxDepth := 100, seed := none, generator := ⟨[], []⟩ }

def legendReferences : Table (List String) :=
  ⟨[("story", ["hero", "place"]), ("hero", ["story"]), ("place", ["hero"])]⟩

theorem review_legend : legend.review = .ok ⟨[], [["story", "hero"]], []⟩ := by cbv

theorem references_legend : Review.references legend.rules = .ok legendReferences := by cbv

/-- All three rules lie on one cycle. -/
theorem isCycle_legend : IsCycle legendReferences ["story", "place", "hero"] :=
  ⟨by decide, by decide, by decide, by decide⟩

theorem place_is_connected_with_reported :
    (∃ cycle ∈ [["story", "hero"]], ∀ member ∈ cycle,
      Connected legendReferences "place" member) ∧
    ∃ cycle ∈ [["story", "hero"]], "story" ∈ cycle := by
  have place : OnCycle legendReferences "place" := isCycle_legend.leads (by decide) (by decide)
  have story : OnCycle legendReferences "story" := isCycle_legend.leads (by decide) (by decide)
  exact ⟨(legend.review_reports_connected review_legend references_legend place).1,
    (legend.review_reports_connected review_legend references_legend story).2 [] ["hero", "place"]
      rfl (by simp)⟩

/-- The hero has been left when the place is met, so the cycle of all three is never closed. -/
theorem place_is_not_reported :
    ¬ ∀ (engine : Engine Script Unit) (review : Review) (references : Table (List String))
        (name : String), engine.review = .ok review →
      Review.references engine.rules = .ok references → OnCycle references name →
        ∃ cycle ∈ review.cycles, name ∈ cycle := by
  intro all
  have circular : OnCycle legendReferences "place" := isCycle_legend.leads (by decide) (by decide)
  obtain ⟨cycle, reported, inside⟩ :=
    all legend _ legendReferences "place" review_legend references_legend circular
  rw [List.mem_singleton.mp reported] at inside
  exact absurd inside (by decide)

end TextGrammar
