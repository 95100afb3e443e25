import Mathlib
import TextGrammar.Proofs.Expansion.Context
import TextGrammar.Random.Script

/-!
Texts that stand one behind the other. Main statement: if the text in front is closed, the whole
expands to what the two expand to one after the other, the second from the run that the first one
leaves behind, and the first error ends it.
-/

namespace TextGrammar.Expansion

open Effect Segment

variable {ρ ω : Type}

/-! ### Segments -/

theorem segments_putChar (slot : String → Expansion ρ ω (List Char)) (c : Char)
    (pieces : List Segment) :
    segments slot (putChar c pieces) = (do
      let more ← segments slot pieces
      return c :: more) := by
  cases pieces with
  | nil => simp [putChar, segments]
  | cons first rest =>
    cases first with
    | plain characters => simp [putChar, segments]
    | slot name => simp [putChar, segments]

/-- Behind a closed text the segments are those that the text behind it has alone, but for
characters that come together. -/
theorem segments_append (slot : String → Expansion ρ ω (List Char)) {front : List Char}
    (closed : Closed front) (back : List Char) :
    segments slot (ofText (front ++ back)) = (do
      let first ← segments slot (ofText front)
      let second ← segments slot (ofText back)
      return first ++ second) := by
  induction front using scan_induction with
  | done => simp [ofText, segments]
  | slot name rest isName ih =>
    have rejoined : '%' :: (name ++ '%' :: rest) ++ back =
        '%' :: (name ++ '%' :: (rest ++ back)) := by
      simp
    rw [rejoined, ofText_slot _ isName, ofText_slot _ isName, segments,
      ih ((closed_slot_iff isName).mp closed), segments]
    simp only [bind_assoc, pure_bind, List.append_assoc]
  | plain c rest noSlot ih =>
    obtain ⟨different, closed⟩ := (closed_plain_iff noSlot).mp closed
    rw [List.cons_append, ofText_plain (not_beginsSlot_of_ne different _), ofText_plain noSlot,
      segments_putChar, segments_putChar, ih closed]
    simp

/-! ### Expansions -/

variable [Draws ρ]

theorem expand_append (recording : Bool) (depth : Nat) {front : List Char} (closed : Closed front)
    (back : List Char) :
    expand recording depth (front ++ back) = (do
      let first ← expand recording depth front
      let second ← expand (ρ := ρ) (ω := ω) recording depth back
      return first ++ second) := by
  cases depth with
  | zero => exact segments_append (slot recording none) closed back
  | succ depth => exact segments_append (slot recording (some _)) closed back

theorem stemsFrom_expand {start : Engine ρ ω} {run : Run ρ ω} (stems : Run.StemsFrom start run)
    (recording : Bool) (depth : Nat) (text : List Char) :
    Run.StemsFrom start (expand recording depth text run).2 := by
  have passes := traces_expand recording depth text run
  refine (passes.invariant (Run.StemsFrom start) ?_ ?_ stems).2
  · intro name rule other found stems
    exact stemsFrom_resolve stems found
  · intro name value other _ stems
    exact ⟨stems.rules, stems.modifiers, stems.maxDepth⟩

/-! ### Generations -/

/-- Without modifiers a generation gives what the expansion gives. -/
theorem generate_of_unmodified {run : Run ρ ω} (unmodified : run.engine.modifiers = .empty)
    (text : String) (preserve : Bool) :
    generate text preserve run =
      ((expand preserve run.engine.maxDepth.toNat text.toList (prepared preserve run)).1.map
          String.ofList,
        (expand preserve run.engine.maxDepth.toNat text.toList (prepared preserve run)).2) := by
  have stems := stemsFrom_expand (stemsFrom_prepared preserve run) preserve
    run.engine.maxDepth.toNat text.toList
  rw [generate_apply, bind_apply]
  rcases expanded : expand preserve run.engine.maxDepth.toNat text.toList (prepared preserve run)
    with ⟨failure | value, later⟩
  · rfl
  · rw [expanded] at stems
    exact modified_of_empty (stems.modifiers.trans unmodified) (String.ofList value)

/-- Behind an expansion nothing is left to prepare: the context is kept, or it is empty already. -/
theorem prepared_expand (preserve : Bool) (depth : Nat) (text : List Char) (run : Run ρ ω) :
    prepared preserve (expand preserve depth text (prepared preserve run)).2 =
      (expand preserve depth text (prepared preserve run)).2 := by
  cases preserve with
  | true => rfl
  | false =>
    have empty : (expand false depth text (prepared false run)).2.engine.context = .empty :=
      (traces_expand false depth text (prepared false run)).context_eq.2
    generalize (expand false depth text (prepared false run)).2 = later at empty
    obtain ⟨engine, world, notes⟩ := later
    obtain ⟨rules, modifiers, context, maxDepth, seed, generator⟩ := engine
    obtain rfl : context = .empty := empty
    rfl

/-- If every percent sign of the text in front belongs to a slot of it, the whole is expanded as the
two texts one after the other, on every level and whether results are recorded or not, and so is it
generated without modifiers: the second begins in the run that the first ends in, an error of either
ends the whole, and the run behind it is the same. -/
theorem texts_in_sequence {front : String} (closed : Closed front.toList) (back : String) :
    (∀ recording depth (run : Run ρ ω),
      expand recording depth (front ++ back).toList run = (do
        let first ← expand recording depth front.toList
        let second ← expand recording depth back.toList
        return first ++ second : Expansion ρ ω (List Char)) run) ∧
    ∀ preserve (run : Run ρ ω), run.engine.modifiers = .empty →
      generate (front ++ back) preserve run = (do
        let first ← generate front preserve
        let second ← generate back preserve
        return first ++ second : Expansion ρ ω String) run := by
  constructor
  · intro recording depth run
    rw [String.toList_append, expand_append recording depth closed]
  · intro preserve run unmodified
    have stems := stemsFrom_expand (stemsFrom_prepared preserve run) preserve
      run.engine.maxDepth.toNat front.toList
    have ready := prepared_expand preserve run.engine.maxDepth.toNat front.toList run
    rw [bind_apply, generate_of_unmodified unmodified, generate_of_unmodified unmodified,
      String.toList_append, expand_append preserve _ closed, bind_apply]
    rcases expanded : expand preserve run.engine.maxDepth.toNat front.toList (prepared preserve run)
      with ⟨failure | first, between⟩
    · rfl
    · rw [expanded] at stems ready
      simp only at stems ready
      rw [Except.map]
      simp only
      rw [bind_apply, bind_apply, generate_of_unmodified (stems.modifiers.trans unmodified),
        stems.maxDepth, ready]
      rcases expand preserve run.engine.maxDepth.toNat back.toList between
        with ⟨failure | second, later⟩
      · rfl
      · show (Except.ok (String.ofList (first ++ second)), later) =
          (Except.ok (String.ofList first ++ String.ofList second), later)
        rw [String.ofList_append]

/-- A rule that gives the days in turn, and another one that depends on the day. -/
def calendar : Run Script Unit :=
  ⟨{ rules := ⟨[("day", .sequential [.str "monday", .str "tuesday"] true 0),
       ("note", .static [.str "on %day%", .str "every day"])]⟩,
     modifiers := .empty, context := .empty, maxDepth := 2, seed := none,
     generator := ⟨[.int 0], []⟩ }, (), []⟩

/-- The percent sign between the two texts belongs to the slot in front of it, so the text behind
begins with none; the day there is the next one. -/
theorem calendar_in_sequence :
    Closed "%day%".toList ∧
    (generate "%day%" true calendar).1 = .ok "monday" ∧
    (generate "note% %note%" true (generate "%day%" true calendar).2).1 =
      .ok "note% on tuesday" ∧
    (generate ("%day%" ++ "note% %note%") true calendar).1 = .ok "mondaynote% on tuesday" := by
  have closed : Closed "%day%".toList := by decide +kernel
  have first : (generate "%day%" true calendar).1 = .ok "monday" := by cbv
  have second : (generate "note% %note%" true (generate "%day%" true calendar).2).1 =
      .ok "note% on tuesday" := by cbv
  refine ⟨closed, first, second, ?_⟩
  rw [(texts_in_sequence closed "note% %note%").2 true calendar rfl, bind_fst_eq_ok_iff]
  refine ⟨"monday", _, Prod.ext first rfl, bind_fst_eq_ok_iff.mpr ?_⟩
  exact ⟨"note% on tuesday", _, Prod.ext second rfl, rfl⟩

end TextGrammar.Expansion
