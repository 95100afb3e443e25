/-!
Sets of characters given as closed ranges of code points.
-/

namespace TextGrammar.Text

/-- Some closed range holds the code point. -/
def inRanges (ranges : List (Nat × Nat)) (point : Nat) : Bool :=
  ranges.any fun range => range.1 ≤ point && point ≤ range.2

theorem inRanges_iff {ranges : List (Nat × Nat)} {point : Nat} :
    inRanges ranges point = true ↔ ∃ range ∈ ranges, range.1 ≤ point ∧ point ≤ range.2 := by
  simp [inRanges]

end TextGrammar.Text
