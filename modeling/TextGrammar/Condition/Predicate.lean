import TextGrammar.Condition.Evaluation
import TextGrammar.Condition.Reading
import TextGrammar.Note
import TextGrammar.Value.Text

/-!
Predicates: conditions compiled from their texts. A text that is no condition never holds, and
neither does a condition that cannot be evaluated.
-/

namespace TextGrammar

open Condition

/-- A compiled condition: its text, and its tree or what is wrong with the text. -/
structure Predicate where
  source : String
  reading : Except Misread Tree

namespace Predicate

/-- The predicate of a text; fails only if digits of the text denote no number. -/
def compile (text : String) : Except Fault Predicate :=
  match read text with
  | .ok tree => .ok ⟨text, .ok tree⟩
  | .error (.misread misread) => .ok ⟨text, .error misread⟩
  | .error (.fault reason) => .error reason

/-- Why a list of parts is no condition. Words, digits and blanks make a list of lexemes that are
no texts; any other part stands for itself and is refused at once. -/
def partsFault (inWord : Bool) : List Value → Fault
  | .scalar (.str part) :: rest =>
    let characters := part.toList
    let isMark := ["", "_", "$", "_$"].contains part
    if inWord && (isMark || characters.all Text.isAlphanumeric) then partsFault true rest
    else if isMark || characters.all Text.isLetter then partsFault true rest
    else if characters.all Text.isBlank then partsFault false rest
    else if characters.all Text.isDigit then
      match rest.dropWhile isDigits with
      | [] | .scalar (.str _) :: _ => .notText
      | _ => .notTextPart
    else .notTextPart
  | _ :: _ => .notTextPart
  | [] => .notText
where
  isDigits : Value → Bool
    | .scalar (.str part) => part ≠ "" && part.toList.all Text.isDigit
    | _ => false

/-- The predicate of a value, which has to be a text. -/
def compileValue : Value → Except Fault Predicate
  | .scalar (.str text) => compile text
  | .scalar _ => .error .notText
  | .list parts => .error (partsFault false parts)
  | .map _ => .error .notIndexed

/-- The tree, if the text is a condition. -/
def tree? (predicate : Predicate) : Option Tree := predicate.reading.toOption

/-- What is wrong with the text, in words. -/
def error? (predicate : Predicate) : Option String :=
  match predicate.reading with
  | .ok _ => none
  | .error misread => some misread.message

/-- The value of the condition in a context, if the text is one. -/
def evaluate? (predicate : Predicate) (context : Value) : Option (Except Fault Value) :=
  predicate.tree?.map (Tree.evaluate context)

/-- The text is a condition whose value in the context counts as true. -/
def holds (predicate : Predicate) (context : Value) : Bool :=
  match predicate.evaluate? context with
  | some (.ok value) => isTrue value
  | _ => false

/-- The answer of a call of the predicate: a missing context counts as an empty one. -/
def applies (predicate : Predicate) (context : Value) : Bool :=
  predicate.holds (if context.isNull then .map [] else context)

/-- The condition cannot be evaluated in the context. -/
def fails (predicate : Predicate) (context : Value) : Bool :=
  match predicate.evaluate? context with
  | some (.error _) => true
  | _ => false

/-- The note about a text that is no condition. -/
def notes (predicate : Predicate) : List Note :=
  match predicate.error? with
  | none => []
  | some message =>
    [⟨.warning, .conditions,
      s!"Condition {Text.quoted predicate.source} will never match: {message}"⟩]

/-- The note about a context in which the condition cannot be evaluated. -/
def failureNotes (predicate : Predicate) (context : Value) : List Note :=
  if predicate.fails context then
    [⟨.debug, .conditions, s!"Condition {Text.quoted predicate.source} failed to evaluate"⟩]
  else []

/-- The text of a predicate in messages. -/
def text (predicate : Predicate) : String :=
  s!"ConditionPredicate({Text.quoted predicate.source})"

end Predicate

end TextGrammar
